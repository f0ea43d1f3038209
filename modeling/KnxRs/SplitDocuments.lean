import KnxRs.SplitRanges

set_option autoImplicit false

/-!
# The documents of a split

The tags of the manufacturer are found by their text. Where these are the ones of the element,
each document is the text around the children of the manufacturer, one child, and the
translations that belong to it.
-/
namespace KnxRs.Split
open Texts TextSearch XmlDocuments SourceTrees Renumber

/-! ## Product documents -/

def manufacturer : Text := "Manufacturer".toList

theorem manufacturer_plain {c d : Char} (hd : d = '<' ∨ d = ':') (hc : d ≠ c) :
    d ∉ manufacturer ++ [c] := by
  have hname : '<' ∉ manufacturer ∧ ':' ∉ manufacturer := by decide
  rw [List.mem_append, List.mem_singleton]
  rcases hd with rfl | rfl
  · exact not_or.mpr ⟨hname.1, hc⟩
  · exact not_or.mpr ⟨hname.2, hc⟩

/-- A document with a manufacturer: the text before its start tag, its children, and the text
    after its end tag. -/
structure Product where
  before : Text
  tag : Tag
  content : List Node
  spaces : Text
  after : Text

namespace Product

def xml (p : Product) : Text :=
  p.before ++ (p.tag.render ++ (render p.content ++ (closing p.tag p.spaces ++ p.after)))

def range (p : Product) : ElementRange where
  outerStart := p.before.length
  childrenStart := (p.before ++ p.tag.render).length
  innerEnd := (p.before ++ p.tag.render ++ render p.content).length
  outerEnd := (p.before ++ p.tag.render ++ render p.content ++ closing p.tag p.spaces).length

structure WellFormed (p : Product) : Prop where
  tag : p.tag.WellFormed
  content : SourceTrees.WellFormed p.content
  spaces : IsSpaces p.spaces

/-- The text that the start tag is searched for by does not stand before it, and the texts that
    are searched for first do not stand anywhere. -/
inductive Opened (p : Product) : Prop
  | spaced (own : '<' :: manufacturer ++ [' '] <+: p.tag.render)
      (first : ¬ '<' :: manufacturer ++ [' '] <:+: p.before)
  | bare (own : '<' :: manufacturer ++ ['>'] <+: p.tag.render)
      (first : ¬ '<' :: manufacturer ++ ['>'] <:+: p.before)
      (spaced : ¬ '<' :: manufacturer ++ [' '] <:+: p.xml)
  | prefixedSpaced (ns : Text) (own : '<' :: ns ++ (':' :: manufacturer ++ [' ']) <+: p.tag.render)
      (plain : '<' ∉ ns ∧ ':' ∉ ns) (first : ¬ ':' :: manufacturer ++ [' '] <:+: p.before)
      (spaced : ¬ '<' :: manufacturer ++ [' '] <:+: p.xml)
      (bare : ¬ '<' :: manufacturer ++ ['>'] <:+: p.xml)
  | prefixedBare (ns : Text) (own : '<' :: ns ++ (':' :: manufacturer ++ ['>']) <+: p.tag.render)
      (plain : '<' ∉ ns ∧ ':' ∉ ns) (first : ¬ ':' :: manufacturer ++ ['>'] <:+: p.before)
      (spaced : ¬ '<' :: manufacturer ++ [' '] <:+: p.xml)
      (bare : ¬ '<' :: manufacturer ++ ['>'] <:+: p.xml)
      (prefixed : ¬ ':' :: manufacturer ++ [' '] <:+: p.xml)

/-- The same for the end tag and the text after it. -/
inductive Closed (p : Product) : Prop
  | bare (own : p.tag.name = manufacturer) (spaces : p.spaces = [])
      (last : ¬ '<' :: '/' :: manufacturer ++ ['>'] <:+: p.after)
  | prefixed (ns : Text) (own : p.tag.name = ns ++ ':' :: manufacturer) (spaces : p.spaces = [])
      (plain : '<' ∉ ns ∧ ':' ∉ ns) (last : ¬ ':' :: manufacturer ++ ['>'] <:+: p.after)
      (bare : ¬ '<' :: '/' :: manufacturer ++ ['>'] <:+: p.xml)

/-- The tags that the text search finds are those of the element. -/
structure Located (p : Product) : Prop where
  wellFormed : p.WellFormed
  plain : '>' ∉ p.tag.body
  opened : p.Opened
  closed : p.Closed

variable {p : Product}

theorem tag_head (p : Product) : ∃ rest, p.xml = p.before ++ '<' :: rest ∧
    p.tag.render ++ (render p.content ++ (closing p.tag p.spaces ++ p.after)) = '<' :: rest := by
  refine ⟨_, rfl, ?_⟩
  unfold Tag.render
  rfl

theorem prefix_tag {s : Text} (h : s <+: p.tag.render) {rest : Text}
    (hrest : p.tag.render ++ (render p.content ++ (closing p.tag p.spaces ++ p.after)) =
      '<' :: rest) : s <+: '<' :: rest :=
  hrest ▸ h.trans (List.prefix_append _ _)

theorem find_own {c : Char} (own : '<' :: manufacturer ++ [c] <+: p.tag.render) (hc : '<' ≠ c)
    (first : ¬ '<' :: manufacturer ++ [c] <:+: p.before) :
    find ('<' :: manufacturer ++ [c]) p.xml = some p.before.length := by
  obtain ⟨rest, hxml, hrest⟩ := tag_head p
  have htail : '<' ∉ ('<' :: manufacturer ++ [c]).tail := manufacturer_plain (.inl rfl) hc
  rw [hxml, find_append htail first, find_prefix (prefix_tag own hrest)]
  rfl

theorem find_prefixed {c : Char} {ns : Text}
    (own : '<' :: ns ++ (':' :: manufacturer ++ [c]) <+: p.tag.render) (hc : '<' ≠ c ∧ ':' ≠ c)
    (plain : '<' ∉ ns ∧ ':' ∉ ns) (first : ¬ ':' :: manufacturer ++ [c] <:+: p.before) :
    (find (':' :: manufacturer ++ [c]) p.xml).map (tagBefore p.xml) = some p.before.length := by
  obtain ⟨rest, hxml, hrest⟩ := tag_head p
  have htail : '<' ∉ (':' :: manufacturer ++ [c]).tail ∧
      ':' ∉ (':' :: manufacturer ++ [c]).tail :=
    ⟨manufacturer_plain (.inl rfl) hc.1, manufacturer_plain (.inr rfl) hc.2⟩
  obtain ⟨more, hmore⟩ := prefix_tag own hrest
  have hsplit : '<' :: rest = ('<' :: ns) ++ ':' :: (manufacturer ++ [c] ++ more) := by
    rw [← hmore]
    simp
  have hns : ¬ ':' :: manufacturer ++ [c] <:+: '<' :: ns := by
    intro h
    rcases List.mem_cons.mp (h.subset List.mem_cons_self) with h | h
    · exact absurd h (by decide)
    · exact plain.2 h
  have hfind : find (':' :: manufacturer ++ [c]) ('<' :: rest) = some ('<' :: ns).length := by
    rw [hsplit, find_append htail.2 hns, find_prefix]
    · rfl
    · exact ⟨more, by simp⟩
  have hbefore : tagBefore p.xml (p.before.length + ('<' :: ns).length) = p.before.length := by
    have htake : p.xml.take (p.before.length + ('<' :: ns).length) = p.before ++ ('<' :: ns) := by
      rw [hxml, hsplit, ← List.append_assoc, ← List.length_append, List.take_left]
    have hlast : rfind ['<'] ('<' :: ns) = some 0 :=
      rfind_pattern List.not_mem_nil fun h => plain.1 (h.subset List.mem_cons_self)
    unfold tagBefore
    rw [htake, rfind_append hlast]
    rfl
  rw [hxml, find_append htail.1 first, hfind, ← hxml]
  exact congrArg some hbefore

theorem opened_find (h : p.Opened) :
    (find ('<' :: manufacturer ++ [' ']) p.xml).or
      ((find ('<' :: manufacturer ++ ['>']) p.xml).or
      (((find (':' :: manufacturer ++ [' ']) p.xml).map (tagBefore p.xml)).or
      ((find (':' :: manufacturer ++ ['>']) p.xml).map (tagBefore p.xml)))) =
        some p.before.length := by
  cases h with
  | spaced own first => rw [find_own own (by decide) first, Option.some_or]
  | bare own first spaced =>
    rw [find_none spaced, Option.none_or, find_own own (by decide) first, Option.some_or]
  | prefixedSpaced ns own plain first spaced bare =>
    rw [find_none spaced, find_none bare, Option.none_or, Option.none_or,
      find_prefixed own (by decide) plain first, Option.some_or]
  | prefixedBare ns own plain first spaced bare prefixed =>
    rw [find_none spaced, find_none bare, find_none prefixed, Option.none_or, Option.none_or,
      Option.map_none, Option.none_or, find_prefixed own (by decide) plain first]

theorem xml_inner (p : Product) : p.xml = (p.before ++ p.tag.render ++ render p.content) ++
    (closing p.tag p.spaces ++ p.after) := by
  unfold xml
  simp only [List.append_assoc]

theorem closed_find (h : p.Closed) :
    (rfind ('<' :: '/' :: manufacturer ++ ['>']) p.xml).or
      ((rfind (':' :: manufacturer ++ ['>']) p.xml).map (tagBefore p.xml)) =
        some p.range.innerEnd := by
  cases h with
  | bare own spaces last =>
    have hclosing : closing p.tag p.spaces = '<' :: '/' :: manufacturer ++ ['>'] := by
      rw [closing_eq, own, spaces, List.append_nil]
    have htail : '<' ∉ '/' :: (manufacturer ++ ['>']) :=
      List.not_mem_cons_of_ne_of_not_mem (by decide) (manufacturer_plain (.inl rfl) (by decide))
    have hfound : rfind ('<' :: '/' :: manufacturer ++ ['>'])
        ('<' :: '/' :: manufacturer ++ ['>'] ++ p.after) = some 0 := rfind_pattern htail last
    rw [xml_inner, hclosing, rfind_append hfound, Option.some_or]
    rfl
  | prefixed ns own spaces plain last bare =>
    have hclosing : closing p.tag p.spaces =
        ('<' :: '/' :: ns) ++ (':' :: manufacturer ++ ['>']) := by
      rw [closing_eq, own, spaces, List.append_nil]
      simp
    have htail : ':' ∉ manufacturer ++ ['>'] := manufacturer_plain (.inr rfl) (by decide)
    have hns : ¬ ['<'] <:+: '/' :: ns := by
      intro h
      rcases List.mem_cons.mp (h.subset List.mem_cons_self) with h | h
      · exact absurd h (by decide)
      · exact plain.1 h
    have hxml : p.xml = (p.before ++ p.tag.render ++ render p.content ++ '<' :: '/' :: ns) ++
        (':' :: manufacturer ++ ['>'] ++ p.after) := by
      rw [xml_inner, hclosing]
      simp only [List.append_assoc]
    have hlast : rfind ['<'] ('<' :: '/' :: ns) = some 0 := rfind_pattern List.not_mem_nil hns
    have hfound : rfind (':' :: manufacturer ++ ['>']) (':' :: manufacturer ++ ['>'] ++ p.after) =
        some 0 := rfind_pattern htail last
    rw [rfind_none bare, Option.none_or, hxml, rfind_append hfound, Option.map_some]
    unfold tagBefore
    rw [Nat.add_zero, List.take_left, rfind_append hlast]
    rfl

theorem findElementRange_eq (h : p.Located) :
    findElementRange p.xml manufacturer = some p.range := by
  have hstart : afterTag p.xml p.before.length = some p.range.childrenStart := by
    have hbody : '>' ∉ '<' :: p.tag.body :=
      List.not_mem_cons_of_ne_of_not_mem (by decide) h.plain
    have hxml : p.xml = p.before ++ ('<' :: p.tag.body ++
        '>' :: (render p.content ++ (closing p.tag p.spaces ++ p.after))) := by
      unfold xml Tag.render
      simp
    rw [hxml, afterTag_eq hbody]
    unfold range Tag.render
    simp only [List.length_append, List.length_cons, List.length_nil, Option.some.injEq]
    omega
  have hend : afterTag p.xml p.range.innerEnd = some p.range.outerEnd := by
    rw [xml_inner]
    refine (afterTag_closing h.wellFormed.tag.name h.wellFormed.spaces _ _).trans ?_
    exact congrArg some List.length_append.symm
  unfold findElementRange
  rw [opened_find h.opened]
  show (afterTag p.xml p.before.length).bind _ = _
  rw [hstart]
  show ((rfind ('<' :: '/' :: manufacturer ++ ['>']) p.xml).or _).bind _ = _
  rw [closed_find h.closed]
  show (afterTag p.xml p.range.innerEnd).bind _ = _
  rw [hend]
  rfl

end Product

/-! ## Children -/

def isChild (name : Text) : Node → Bool
  | .token (.tag t) => localName t.name = name
  | .token _ => false
  | .element tag _ _ => localName tag.name = name

def child (name : Text) (content : List Node) : Option Node := content.find? (isChild name)

/-- Up to the first child of the name no deeper element has it, and the child has both tags. -/
def Direct (name : Text) : List Node → Prop
  | [] => True
  | .token t :: ns => isChild name (.token t) = false ∧ Direct name ns
  | .element tag children _ :: ns =>
    localName tag.name = name ∨ mentions (hasLocal name) children = false ∧ Direct name ns

def Direct.decide (name : Text) : (content : List Node) → Decidable (Direct name content)
  | [] => .isTrue trivial
  | .token _ :: ns =>
    have := Direct.decide name ns
    inferInstanceAs (Decidable (_ ∧ _))
  | .element _ _ _ :: ns =>
    have := Direct.decide name ns
    inferInstanceAs (Decidable (_ ∨ _ ∧ _))

instance (name : Text) : DecidablePred (Direct name) := Direct.decide name

theorem direct_cases {name : Text} {content : List Node} (h : Direct name content) :
    (child name content = none ∧ mentions (hasLocal name) content = false) ∨
      ∃ ns tag children spaces ms, content = ns ++ .element tag children spaces :: ms ∧
        localName tag.name = name ∧ mentions (hasLocal name) ns = false ∧
        child name content = some (.element tag children spaces) := by
  induction content with
  | nil =>
    left
    rw [mentions]
    exact ⟨rfl, rfl⟩
  | cons n content ih =>
    have later (hn : isChild name n = false) (hquiet : n.mentions (hasLocal name) = false)
        (hrest : Direct name content) : (child name (n :: content) = none ∧
          mentions (hasLocal name) (n :: content) = false) ∨
        ∃ ns tag children spaces ms, n :: content = ns ++ .element tag children spaces :: ms ∧
          localName tag.name = name ∧ mentions (hasLocal name) ns = false ∧
          child name (n :: content) = some (.element tag children spaces) := by
      have hchild : child name (n :: content) = child name content := by
        unfold child
        rw [List.find?_cons, hn]
      rcases ih hrest with ⟨hnone, hmentions⟩ | ⟨ns, tag, children, spaces, ms, rfl, hrest⟩
      · refine .inl ⟨hchild.trans hnone, ?_⟩
        rw [mentions, hquiet, hmentions]
        rfl
      · refine .inr ⟨n :: ns, tag, children, spaces, ms, rfl, hrest.1, ?_, hchild.trans hrest.2.2⟩
        rw [mentions, hquiet, hrest.2.1]
        rfl
    cases n with
    | token t =>
      rw [Direct] at h
      exact later h.1 (by rw [Node.mentions]) h.2
    | element tag children spaces =>
      by_cases hname : localName tag.name = name
      · refine .inr ⟨[], tag, children, spaces, content, rfl, hname, by rw [mentions], ?_⟩
        unfold child
        rw [List.find?_cons, show isChild name (.element tag children spaces) = true from
          decide_eq_true hname]
      · rw [Direct] at h
        obtain ⟨hchildren, hrest⟩ := h.resolve_left hname
        refine later (decide_eq_false hname) ?_ hrest
        rw [Node.mentions, hchildren, Bool.or_false]
        exact decide_eq_false hname

theorem wellFormed_append {ns ms : List Node} (h : SourceTrees.WellFormed (ns ++ ms)) :
    SourceTrees.WellFormed ns ∧ SourceTrees.WellFormed ms := by
  induction ns with
  | nil =>
    rw [SourceTrees.WellFormed]
    exact ⟨trivial, h⟩
  | cons n ns ih =>
    rw [List.cons_append, SourceTrees.WellFormed] at h
    rw [SourceTrees.WellFormed]
    exact ⟨⟨h.1, (ih h.2).1⟩, (ih h.2).2⟩

section
variable {lib : Library} (documented : lib.reader.Documented) {p : Product} (located : p.Located)
include documented located

theorem findChild_read (name : Text) : findChildElementRange lib.reader p.xml p.range name =
    .ok (childRangeFrom p.xml p.range.childrenStart name .initial (events 0 p.content)) := by
  have hle : p.range.childrenStart ≤ p.range.innerEnd := by
    unfold Product.range
    simp only [List.length_append]
    omega
  have hslice : slice p.xml p.range.childrenStart p.range.innerEnd = render p.content := by
    have h := slice_between (p.before ++ p.tag.render) (render p.content)
      (closing p.tag p.spaces ++ p.after)
    have hxml : p.xml = (p.before ++ p.tag.render) ++
        (render p.content ++ (closing p.tag p.spaces ++ p.after)) := by
      unfold Product.xml
      rw [List.append_assoc]
    rwa [← List.length_append, ← hxml] at h
  unfold findChildElementRange searchArea
  rw [if_pos hle, hslice, ← documented _ located.wellFormed.content]
  rfl

theorem findChild_outer {name : Text} (direct : Direct name p.content) :
    ∃ range, findChildElementRange lib.reader p.xml p.range name = .ok range ∧
      range.map (fun r => r.outer p.xml) = (child name p.content).map Node.render := by
  refine ⟨_, findChild_read documented located name, ?_⟩
  rcases direct_cases direct with ⟨hnone, hmentions⟩ | ⟨ns, tag, children, spaces, ms, hcontent,
    hname, hmentions, hchild⟩
  · have hpass := pass p.xml p.range.childrenStart name .initial 0 [] p.content hmentions
    rw [List.append_nil] at hpass
    rw [hpass, hnone]
    rfl
  · have hwell := wellFormed_append (hcontent ▸ located.wellFormed.content)
    rw [SourceTrees.WellFormed] at hwell
    have hxml : p.xml = (p.before ++ p.tag.render ++ render ns) ++
        ((Node.element tag children spaces).render ++
          (render ms ++ (closing p.tag p.spaces ++ p.after))) := by
      unfold Product.xml
      rw [hcontent, render_append, render_cons]
      simp only [List.append_assoc]
    have hpos : 0 + (render ns).length + p.range.childrenStart =
        (p.before ++ p.tag.render ++ render ns).length := by
      unfold Product.range
      simp only [List.length_append]
      omega
    obtain ⟨childrenStart, _, hfound⟩ := childRangeFrom_found hname hwell.2.1
      (render ms ++ (closing p.tag p.spaces ++ p.after)) hpos
      (events (0 + (render ns).length + (Node.element tag children spaces).render.length) ms)
    rw [hcontent, events_append, pass _ _ _ _ _ _ ns hmentions, events_cons, hxml, hfound,
      ← hcontent, hchild]
    exact congrArg some (slice_between _ _ _)

end

/-! ## Failures -/

/-- What fails only by a slice whose end is before its start. -/
def PanicsOnly {α : Type} (x : Except Failure α) : Prop := ∀ e, x = .error e → e = .panic

namespace PanicsOnly
variable {α β : Type}

theorem ok (a : α) : PanicsOnly (.ok a) := fun _ h => by cases h

theorem bind {x : Except Failure α} {f : α → Except Failure β} (hx : PanicsOnly x)
    (hf : ∀ a, PanicsOnly (f a)) : PanicsOnly (x >>= f) := by
  intro e h
  cases x with
  | error e' => exact hx e (congrArg Except.error (Except.error.inj h))
  | ok a => exact hf a e h

theorem map {x : Except Failure α} (hx : PanicsOnly x) (f : α → β) : PanicsOnly (x.map f) := by
  intro e h
  cases x with
  | error e' => exact hx e (congrArg Except.error (Except.error.inj h))
  | ok a => cases h

theorem mapM {f : α → Except Failure β} (hf : ∀ a, PanicsOnly (f a)) (xs : List α) :
    PanicsOnly (xs.mapM f) := by
  induction xs with
  | nil => exact ok []
  | cons x xs ih =>
    rw [List.mapM_cons]
    exact (hf x).bind fun y => ih.bind fun ys => ok (y :: ys)

end PanicsOnly

theorem findChildElementRanges_panics (reader : TagReader) (xml : Text) (parent : ElementRange)
    (name : Text) : PanicsOnly (findChildElementRanges reader xml parent name) := by
  refine PanicsOnly.map (fun e h => ?_) _
  unfold searchArea at h
  split_ifs at h
  cases h
  rfl

theorem filterLanguage_panics (lib : Library) (xml : Text) (category : TranslationCategory)
    (language : ElementRange) : PanicsOnly (filterLanguage lib xml category language) :=
  ((findChildElementRanges_panics _ _ _ _).map _).map _

theorem translationsOf_panics (lib : Library) (xml : Text) (languages : Option ElementRange)
    (category : TranslationCategory) : PanicsOnly (translationsOf lib xml languages category) := by
  cases languages with
  | none => exact .ok none
  | some languages =>
    exact (PanicsOnly.bind (findChildElementRanges_panics _ _ _ _) fun ranges =>
      (PanicsOnly.mapM (filterLanguage_panics lib xml category) ranges).bind fun _ => .ok _).map _

/-! ## The documents -/

def requiredNames : List Text :=
  ["Catalog".toList, "Hardware".toList, "ApplicationPrograms".toList]

def childNames : List Text := requiredNames ++ ["Languages".toList, "Baggages".toList]

/-- The text around the children of the manufacturer, a child, and translations. -/
def Product.document (p : Product) (n : Node) (translations : Option Text) : Text :=
  buildDocument (p.before ++ p.tag.render) (closing p.tag p.spaces ++ p.after) [n.render]
    translations

theorem childDocument_eq {p : Product} {n : Node} {r : ElementRange}
    (h : r.outer p.xml = n.render) (translations : Option Text) :
    childDocument p.xml p.range r translations = p.document n translations := by
  have hstart : p.xml.take p.range.childrenStart = p.before ++ p.tag.render := by
    unfold Product.xml Product.range
    rw [← List.append_assoc, List.take_left]
  have hend : p.xml.drop p.range.innerEnd = closing p.tag p.spaces ++ p.after := by
    rw [p.xml_inner]
    exact List.drop_left
  unfold childDocument Product.document
  rw [hstart, hend, h]

/-- The documents with a child and the translations of its category. -/
def Product.documents (p : Product) (lib : Library) (metadata : KnxMetadata)
    (languages : Option ElementRange) (catalog hardware app : Node) :
    Except Failure (List (Text × Text)) := do
  let catalogText := p.document catalog (← translationsOf lib p.xml languages .catalog)
  let hardwareText := p.document hardware (← translationsOf lib p.xml languages .hardware)
  let appText := p.document app (← translationsOf lib p.xml languages .application)
  return [(catalogFile, catalogText), (hardwareFile, hardwareText),
    (applicationFile metadata, appText)] ++
    (child "Baggages".toList p.content).toList.map fun n => (baggagesFile, p.document n none)

theorem option_render {range : Option ElementRange} {n : Option Node} {xml : Text}
    (h : range.map (fun r => r.outer xml) = n.map Node.render) :
    (range = none ∧ n = none) ∨ ∃ r m, range = some r ∧ n = some m ∧ r.outer xml = m.render := by
  cases range with
  | none =>
    cases n with
    | none => exact .inl ⟨rfl, rfl⟩
    | some m => cases h
  | some r =>
    cases n with
    | none => cases h
    | some m => exact .inr ⟨r, m, rfl, rfl, Option.some.inj h⟩

theorem ok_bind {α β : Type} (a : α) (f : α → Except Failure β) : (.ok a >>= f) = f a := rfl

theorem required_some (r : ElementRange) (name : String) : required (some r) name = .ok r := rfl

/-- The split, once its ranges are found. -/
theorem splitXml_ranges {lib : Library} {p : Product} (located : p.Located)
    {catalog hardware app languages baggages : Option ElementRange}
    (hcatalog : findChildElementRange lib.reader p.xml p.range "Catalog".toList = .ok catalog)
    (hhardware : findChildElementRange lib.reader p.xml p.range "Hardware".toList = .ok hardware)
    (happ : findChildElementRange lib.reader p.xml p.range "ApplicationPrograms".toList = .ok app)
    (hlanguages : findChildElementRange lib.reader p.xml p.range "Languages".toList =
      .ok languages)
    (hbaggages : findChildElementRange lib.reader p.xml p.range "Baggages".toList = .ok baggages)
    (metadata : KnxMetadata) :
    splitXml lib p.xml metadata = (do
      let catalog ← required catalog "Catalog"
      let hardware ← required hardware "Hardware"
      let app ← required app "ApplicationPrograms"
      let catalogText := childDocument p.xml p.range catalog
        (← translationsOf lib p.xml languages .catalog)
      let hardwareText := childDocument p.xml p.range hardware
        (← translationsOf lib p.xml languages .hardware)
      let appText := childDocument p.xml p.range app
        (← translationsOf lib p.xml languages .application)
      return [(catalogFile, catalogText), (hardwareFile, hardwareText),
        (applicationFile metadata, appText)] ++
        baggages.toList.map fun r => (baggagesFile, childDocument p.xml p.range r none)) := by
  have hmanu : findElementRange p.xml "Manufacturer".toList = some p.range :=
    Product.findElementRange_eq located
  unfold splitXml
  simp only [hmanu, required_some, ok_bind, hcatalog, hhardware, happ, hlanguages, hbaggages]

end KnxRs.Split
