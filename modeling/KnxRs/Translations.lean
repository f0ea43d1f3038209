import KnxRs.OuterNodes
import KnxRs.SplitDocuments

set_option autoImplicit false

/-!
# Translations of a split

The filtered translations are the source text of a tree: the languages with those of their units
whose element is of the category, in the order of the document.
-/
namespace KnxRs.Split
open Texts TextSearch XmlDocuments SourceTrees Renumber

/-! ## Ranges of nodes that stand in a text -/

theorem stands_self (s : Text) : Stands s 0 s := ⟨[], [], by simp, rfl⟩

theorem slice_stands {xml s : Text} {pos : Nat} (h : Stands xml pos s) :
    slice xml pos (pos + s.length) = s := by
  obtain ⟨pre, post, rfl, rfl⟩ := h
  exact slice_between pre s post

theorem afterTag_stands {xml body : Text} {pos : Nat} (h : Stands xml pos (body ++ ['>']))
    (hbody : '>' ∉ body) : afterTag xml pos = some (pos + (body ++ ['>']).length) := by
  obtain ⟨pre, post, rfl, rfl⟩ := h
  rw [List.append_assoc body]
  show afterTag (pre ++ (body ++ '>' :: post)) pre.length = _
  rw [afterTag_eq hbody, List.length_append, List.length_singleton, Nat.add_assoc]

theorem afterTag_render {xml : Text} {pos : Nat} {t : Tag} (h : Stands xml pos t.render)
    (hbody : '>' ∉ t.body) : afterTag xml pos = some (pos + t.render.length) :=
  afterTag_stands h (List.not_mem_cons_of_ne_of_not_mem (by decide) hbody)

theorem afterTag_end {xml : Text} {pos : Nat} {tag : Tag} {spaces : Text}
    (h : Stands xml pos (closing tag spaces)) (hname : IsName tag.name)
    (hspaces : IsSpaces spaces) : afterTag xml pos = some (pos + (closing tag spaces).length) := by
  obtain ⟨pre, post, rfl, rfl⟩ := h
  exact afterTag_closing hname hspaces pre post

/-- The range of a node at `pos`, whose first tag has no `>` in it. -/
def rangeAt (pos : Nat) : Node → ElementRange
  | .token t =>
    ⟨pos, pos + t.render.length, pos + t.render.length, pos + t.render.length⟩
  | .element tag children spaces =>
    ⟨pos, pos + tag.render.length, pos + (tag.render ++ render children).length,
      pos + (Node.element tag children spaces).render.length⟩

theorem rangeAt_outer {xml : Text} {pos : Nat} {n : Node} (h : Stands xml pos n.render) :
    (rangeAt pos n).outer xml = n.render := by
  cases n with
  | token t =>
    rw [Node.render] at h ⊢
    exact slice_stands h
  | element tag children spaces => exact slice_stands h

/-! ## The children of a name -/

theorem hasLocal_iff {name tagName : Text} :
    hasLocal name tagName = true ↔ localName tagName = name := decide_eq_true_iff

section
variable (xml : Text) (offset : Nat) (name : Text)

theorem childRangesFrom_other {tag : Tag} (h : localName tag.name ≠ name) (s : Scan) (pos : Nat)
    (rest : List (Nat × TagEvent)) :
    childRangesFrom xml offset name s ((pos, .start tag.element) :: rest) =
        childRangesFrom xml offset name s rest ∧
      childRangesFrom xml offset name s ((pos, .close tag.name) :: rest) =
        childRangesFrom xml offset name s rest := by
  constructor
  · rw [childRangesFrom]
    exact if_neg h
  · rw [childRangesFrom]
    exact if_neg fun hclose => h hclose.1

theorem childRangesFrom_nested {tag : Tag} (h : localName tag.name = name) {s : Scan}
    (hs : 0 < s.depth) (pos : Nat) (rest : List (Nat × TagEvent)) :
    childRangesFrom xml offset name s ((pos, .start tag.element) :: rest) =
        childRangesFrom xml offset name { s with depth := s.depth + 1 } rest ∧
      childRangesFrom xml offset name { s with depth := s.depth + 1 }
          ((pos, .close tag.name) :: rest) =
        childRangesFrom xml offset name s rest := by
  constructor
  · rw [childRangesFrom]
    exact (if_pos h).trans (if_neg (by omega))
  · rw [childRangesFrom]
    exact (if_pos ⟨h, Nat.succ_pos _⟩).trans (if_neg (by dsimp only; omega))

/-- A token that is no tag of the name, or that stands in an element of the name, is passed
    over. -/
theorem childRangesFrom_token (s : Scan) (pos : Nat) (t : Token) (rest : List (Nat × TagEvent))
    (h : 0 < s.depth ∨ (Node.token t).outermost (hasLocal name) pos = []) :
    childRangesFrom xml offset name s ((Node.token t).events pos ++ rest) =
      childRangesFrom xml offset name s rest := by
  rw [Node.events]
  cases t with
  | tag t =>
    show childRangesFrom xml offset name s ((pos, .empty t.element) :: rest) = _
    rw [childRangesFrom, if_neg]
    rintro ⟨hname, hdepth⟩
    rcases h with h | h
    · omega
    · have hlocal : localName t.name = name := hname
      rw [Node.outermost, if_pos (hasLocal_iff.mpr hlocal)] at h
      cases h
  | text _ | comment _ | cdata _ | instruction _ | declaration _ | endTag _ _ => rfl

mutual

theorem ranges_inside_node {s : Scan} (hs : 0 < s.depth) (pos : Nat)
    (rest : List (Nat × TagEvent)) : (n : Node) →
      childRangesFrom xml offset name s (n.events pos ++ rest) =
        childRangesFrom xml offset name s rest
  | .token t => childRangesFrom_token xml offset name s pos t rest (.inl hs)
  | .element tag children spaces => by
    rw [Node.events, List.append_assoc, List.cons_append, List.singleton_append]
    by_cases hname : localName tag.name = name
    · have hnested := childRangesFrom_nested xml offset name hname hs
      rw [(hnested _ _).1, ranges_inside (Nat.succ_pos _) _ _ children, (hnested _ _).2]
    · have hother := childRangesFrom_other xml offset name hname s
      rw [(hother _ _).1, ranges_inside hs _ _ children, (hother _ _).2]

theorem ranges_inside {s : Scan} (hs : 0 < s.depth) (pos : Nat) (rest : List (Nat × TagEvent)) :
    (ns : List Node) → childRangesFrom xml offset name s (events pos ns ++ rest) =
      childRangesFrom xml offset name s rest
  | [] => by rw [events_nil, List.nil_append]
  | n :: ns => by
    rw [events_cons, List.append_assoc, ranges_inside_node hs _ _ n, ranges_inside hs _ _ ns]

end

def outerRanges (found : List (Nat × Node)) : List ElementRange :=
  found.map fun x => rangeAt (x.1 + offset) x.2

theorem childRangesFrom_tag {t : Tag} {pos : Nat} (hname : localName t.name = name)
    (hplain : '>' ∉ t.body) (hstands : Stands xml (pos + offset) t.render)
    (rest : List (Nat × TagEvent)) :
    childRangesFrom xml offset name .initial ((Node.token (.tag t)).events pos ++ rest) =
      rangeAt (pos + offset) (.token (.tag t)) :: childRangesFrom xml offset name .initial rest := by
  rw [Node.events]
  show childRangesFrom xml offset name .initial ((pos, .empty t.element) :: rest) = _
  rw [childRangesFrom, if_pos ⟨hname, rfl⟩, afterTag_render hstands hplain]
  rfl

theorem childRangesFrom_start {tag : Tag} {pos childrenStart : Nat}
    (hname : localName tag.name = name)
    (hafter : afterTag xml (pos + offset) = some childrenStart) (rest : List (Nat × TagEvent)) :
    childRangesFrom xml offset name .initial ((pos, .start tag.element) :: rest) =
      childRangesFrom xml offset name ⟨1, some (pos + offset), some childrenStart⟩ rest := by
  rw [childRangesFrom]
  refine (if_pos hname).trans ((if_pos rfl).trans ?_)
  rw [hafter]
  rfl

theorem childRangesFrom_close {tag : Tag} {pos outerStart childrenStart outerEnd : Nat}
    (hname : localName tag.name = name)
    (hafter : afterTag xml (pos + offset) = some outerEnd) (rest : List (Nat × TagEvent)) :
    childRangesFrom xml offset name ⟨1, some outerStart, some childrenStart⟩
        ((pos, .close tag.name) :: rest) =
      ⟨outerStart, childrenStart, pos + offset, outerEnd⟩ ::
        childRangesFrom xml offset name .initial rest := by
  rw [childRangesFrom]
  refine (if_pos ⟨hname, Nat.one_pos⟩).trans ((if_pos rfl).trans ?_)
  rw [hafter]
  rfl

theorem childRangesFrom_element {tag : Tag} {children : List Node} {spaces : Text} {pos : Nat}
    (hname : localName tag.name = name) (hplain : '>' ∉ tag.body)
    (hwell : (Node.element tag children spaces).WellFormed)
    (hstands : Stands xml (pos + offset) (Node.element tag children spaces).render)
    (rest : List (Nat × TagEvent)) :
    childRangesFrom xml offset name .initial
        ((Node.element tag children spaces).events pos ++ rest) =
      rangeAt (pos + offset) (.element tag children spaces) ::
        childRangesFrom xml offset name .initial rest := by
  obtain ⟨hstart, _, hclose⟩ := node_stands hstands
  rw [Node.WellFormed] at hwell
  have hbegin := afterTag_render hstart hplain
  have hend := afterTag_end hclose hwell.1.name hwell.2.2.2
  rw [Nat.add_right_comm] at hend
  rw [Node.events, List.append_assoc, List.cons_append, List.singleton_append,
    childRangesFrom_start xml offset name hname hbegin,
    ranges_inside xml offset name Nat.one_pos,
    childRangesFrom_close xml offset name hname hend]
  have hlength : (Node.element tag children spaces).render.length =
      (tag.render ++ render children).length + (closing tag spaces).length := by
    rw [Node.render, List.length_append]
  simp only [rangeAt, hlength, List.cons.injEq, ElementRange.mk.injEq, and_true, true_and]
  omega

mutual

theorem childRanges_node (pos : Nat) (rest : List (Nat × TagEvent)) : (n : Node) →
    n.WellFormed → Stands xml (pos + offset) n.render →
    (∀ x ∈ n.outermost (hasLocal name) pos, x.2.Plain) →
      childRangesFrom xml offset name .initial (n.events pos ++ rest) =
        outerRanges offset (n.outermost (hasLocal name) pos) ++
          childRangesFrom xml offset name .initial rest
  | .token t, hwell, hstands, hplain => by
    cases t with
    | tag t =>
      by_cases hname : localName t.name = name
      · have hfound : (Node.token (.tag t)).outermost (hasLocal name) pos =
            [(pos, .token (.tag t))] := by
          rw [Node.outermost, if_pos (hasLocal_iff.mpr hname)]
        rw [hfound] at hplain ⊢
        exact childRangesFrom_tag xml offset name hname (hplain _ List.mem_cons_self) hstands rest
      · have hfound : (Node.token (.tag t)).outermost (hasLocal name) pos = [] := by
          rw [Node.outermost, if_neg (mt hasLocal_iff.mp hname)]
        rw [hfound]
        exact childRangesFrom_token xml offset name _ pos _ rest (.inr hfound)
    | text _ | comment _ | cdata _ | instruction _ | declaration _ | endTag _ _ =>
      rw [Node.outermost]
      · exact childRangesFrom_token xml offset name _ pos _ rest (.inr (by simp [Node.outermost]))
      · simp
  | .element tag children spaces, hwell, hstands, hplain => by
    rw [Node.outermost] at hplain ⊢
    by_cases hname : localName tag.name = name
    · rw [if_pos (hasLocal_iff.mpr hname)] at hplain ⊢
      exact childRangesFrom_element xml offset name hname (hplain _ List.mem_cons_self) hwell
        hstands rest
    · rw [if_neg (mt hasLocal_iff.mp hname)] at hplain ⊢
      have hother := childRangesFrom_other xml offset name hname .initial
      have hchildren := (node_stands hstands).2.1
      rw [Nat.add_right_comm] at hchildren
      rw [Node.WellFormed] at hwell
      rw [Node.events, List.append_assoc, List.cons_append, List.singleton_append,
        (hother _ _).1, childRanges _ _ children hwell.2.2.1 hchildren hplain, (hother _ _).2]

theorem childRanges (pos : Nat) (rest : List (Nat × TagEvent)) : (ns : List Node) →
    SourceTrees.WellFormed ns → Stands xml (pos + offset) (render ns) →
    (∀ x ∈ outermost (hasLocal name) pos ns, x.2.Plain) →
      childRangesFrom xml offset name .initial (events pos ns ++ rest) =
        outerRanges offset (outermost (hasLocal name) pos ns) ++
          childRangesFrom xml offset name .initial rest
  | [], _, _, _ => by
    rw [events_nil, outermost]
    rfl
  | n :: ns, hwell, hstands, hplain => by
    rw [SourceTrees.WellFormed] at hwell
    rw [render_cons] at hstands
    rw [outermost] at hplain ⊢
    have hlater := hstands.append.2
    rw [Nat.add_right_comm] at hlater
    rw [events_cons, List.append_assoc,
      childRanges_node pos _ n hwell.1 hstands.append.1
        fun x hx => hplain x (List.mem_append_left _ hx),
      childRanges _ _ ns hwell.2 hlater fun x hx => hplain x (List.mem_append_right _ hx)]
    unfold outerRanges
    rw [List.map_append, List.append_assoc]

end

end

/-! ## Filtered translations -/

section
variable (lib : Library)

/-- The `RefId` of a node, as it is read. -/
def refIdOf (n : Node) : Option Text := do
  let e ← n.head
  let raw ← e.attr "RefId".toList
  some ((lib.normalizedValue raw).getD raw)

def keeps (category : TranslationCategory) (unit : Node) : Bool :=
  match refIdOf lib unit with
  | some refId => matchesCategory refId category
  | none => false

def languageNodes (languages : Node) : List Node :=
  outer (hasLocal "Language".toList) languages.children

def unitNodes (language : Node) : List Node :=
  outer (hasLocal "TranslationUnit".toList) language.children

/-- The language with its units of the category, if it has any. -/
def translatedLanguage (category : TranslationCategory) : Node → Option Node
  | .token _ => none
  | .element tag children spaces =>
    let units := (unitNodes (.element tag children spaces)).filter (keeps lib category)
    if units = [] then none else some (.element tag units spaces)

def languagesTag : Tag := ⟨"Languages".toList, [], [], false⟩

def translatedLanguages (category : TranslationCategory) (languages : Node) : Option Node :=
  let translated := (languageNodes languages).filterMap (translatedLanguage lib category)
  if translated = [] then none else some (.element languagesTag translated [])

end

/-! ## The filter on the source text -/

theorem tag_render (t : Tag) : t.render ≠ [] := by
  simp [Tag.render]

theorem head_render {n : Node} {e : Element} (h : n.head = some e) : n.render ≠ [] := by
  cases n with
  | token t =>
    cases t with
    | tag t =>
      rw [Node.render]
      exact tag_render t
    | text _ | comment _ | cdata _ | instruction _ | declaration _ | endTag _ _ => cases h
  | element tag children spaces =>
    rw [Node.render]
    exact List.append_ne_nil_of_left_ne_nil (List.append_ne_nil_of_left_ne_nil (tag_render tag) _) _

theorem render_filter {ns : List Node} (keep : Node → Bool) :
    ns.flatMap (fun n => if keep n = true then n.render else []) = render (ns.filter keep) := by
  induction ns with
  | nil => rw [List.flatMap_nil, List.filter_nil, render_nil]
  | cons n ns ih =>
    rw [List.flatMap_cons, ih, List.filter_cons]
    by_cases hkeep : keep n = true
    · rw [if_pos hkeep, if_pos hkeep, render_cons]
    · rw [if_neg hkeep, if_neg hkeep, List.nil_append]

theorem render_filterMap {ns : List Node} (f : Node → Option Node) :
    ns.flatMap (fun n => (f n).elim [] Node.render) = render (ns.filterMap f) := by
  induction ns with
  | nil => rw [List.flatMap_nil, List.filterMap_nil, render_nil]
  | cons n ns ih =>
    rw [List.flatMap_cons, ih, List.filterMap_cons]
    cases f n with
    | none => rfl
    | some m => exact (render_cons m _).symm

theorem render_eq_nil {ns : List Node} (h : ∀ n ∈ ns, n.render ≠ []) :
    render ns = [] ↔ ns = [] := by
  cases ns with
  | nil => simp
  | cons n ns =>
    rw [render_cons, List.append_eq_nil_iff]
    exact iff_of_false (fun hnil => h n List.mem_cons_self hnil.1) (List.cons_ne_nil _ _)

theorem translatedLanguage_render {lib : Library} {l m : Node} {category : TranslationCategory}
    (h : translatedLanguage lib category l = some m) : m.render ≠ [] := by
  cases l with
  | token t => cases h
  | element tag children spaces =>
    unfold translatedLanguage at h
    dsimp only at h
    split_ifs at h
    cases h
    exact head_render rfl

theorem mapM_ok {α β : Type} {f : α → Except Failure β} {g : α → β} {xs : List α}
    (h : ∀ x ∈ xs, f x = .ok (g x)) : xs.mapM f = .ok (xs.map g) := by
  induction xs with
  | nil => rfl
  | cons x xs ih =>
    rw [List.mapM_cons, h x List.mem_cons_self, ih fun y hy => h y (List.mem_cons_of_mem _ hy)]
    rfl

section
variable {xml : Text} {pos : Nat} {n : Node}

theorem children_stand (h : Stands xml pos n.render) :
    Stands xml (rangeAt pos n).childrenStart (render n.children) := by
  cases n with
  | token t =>
    rw [Node.render, ← List.append_nil t.render] at h
    exact (show render (Node.token t).children = [] from render_nil) ▸ h.append.2
  | element tag children spaces => exact (node_stands h).2.1

theorem searchArea_rangeAt (h : Stands xml pos n.render) :
    searchArea xml (rangeAt pos n) = .ok (render n.children) := by
  have hstands := slice_stands (children_stand h)
  have hend : (rangeAt pos n).innerEnd =
      (rangeAt pos n).childrenStart + (render n.children).length := by
    cases n with
    | token t =>
      rw [show render (Node.token t).children = [] from render_nil]
      rfl
    | element tag children spaces =>
      simp only [rangeAt, Node.children, List.length_append, Nat.add_assoc]
  unfold searchArea
  rw [hend, if_pos (Nat.le_add_right _ _), hstands]

theorem outer_at {name : Text} (hstands : Stands xml pos n.render) (hwell : n.WellFormed) :
    ∀ x ∈ outermost (hasLocal name) 0 n.children,
      Outer (hasLocal name) xml (x.1 + (rangeAt pos n).childrenStart, x.2) := by
  intro x hx
  have h := outermost_outer (hasLocal name) 0 n.children (Node.children_wellFormed hwell)
    (stands_self _) x hx
  refine ⟨?_, h.wellFormed, h.named⟩
  rw [Nat.add_comm]
  exact (children_stand hstands).inside h.stands

variable {lib : Library} (documented : lib.reader.Documented)
include documented

theorem findRanges_eq (hstands : Stands xml pos n.render) (hwell : n.WellFormed) {name : Text}
    (hplain : ∀ m ∈ outer (hasLocal name) n.children, m.Plain) :
    findChildElementRanges lib.reader xml (rangeAt pos n) name =
      .ok (outerRanges (rangeAt pos n).childrenStart (outermost (hasLocal name) 0 n.children)) := by
  have hchildren := children_stand hstands
  have hinside := Node.children_wellFormed hwell
  have hevents := childRanges xml (rangeAt pos n).childrenStart name 0 [] n.children hinside
    (by rwa [Nat.zero_add]) fun x hx => hplain x.2 (List.mem_map_of_mem hx)
  unfold findChildElementRanges
  rw [searchArea_rangeAt hstands]
  show Except.ok (childRangesFrom _ _ _ _ (lib.reader (render n.children))) = _
  rw [documented _ hinside, ← List.append_nil (events 0 n.children), hevents, childRangesFrom,
    List.append_nil]

theorem extractAttribute_eq {e : Element} (hwell : n.WellFormed) (hhead : n.head = some e) :
    extractAttribute lib n.render "RefId".toList = refIdOf lib n := by
  have hevents : lib.reader n.render = n.events 0 := by
    have h := documented [n] (by rw [SourceTrees.WellFormed, SourceTrees.WellFormed]; exact ⟨hwell, trivial⟩)
    rwa [render_cons, render_nil, List.append_nil, events_cons, events_nil, List.append_nil] at h
  obtain ⟨event, rest, hn, hevent⟩ := Node.events_head hhead 0
  have hfirst : firstElement ((0, event) :: rest) = some e := by
    rcases hevent with rfl | rfl <;> rfl
  unfold extractAttribute refIdOf
  rw [hevents, hn, hfirst, hhead]

theorem filterUnit_eq {x : Nat × Node} {name : Text} (h : Outer (hasLocal name) xml x)
    (category : TranslationCategory) : filterUnit lib xml category (rangeAt x.1 x.2) =
      if keeps lib category x.2 = true then x.2.render else [] := by
  obtain ⟨e, hhead, _⟩ := h.named
  unfold filterUnit keeps
  rw [rangeAt_outer h.stands, extractAttribute_eq documented h.wellFormed hhead]
  cases refIdOf lib x.2 <;> rfl

/-- The first tags of the languages and of their units have no `>` in them. -/
structure PlainTranslations (languages : Node) : Prop where
  root : languages.Plain
  language : ∀ l ∈ languageNodes languages, l.Plain
  unit : ∀ l ∈ languageNodes languages, ∀ u ∈ unitNodes l, u.Plain

theorem filterUnits_eq (hstands : Stands xml pos n.render) (hwell : n.WellFormed)
    (hplain : ∀ u ∈ unitNodes n, u.Plain) (category : TranslationCategory) :
    filterUnitsInLanguage lib xml category (rangeAt pos n) =
      .ok (render ((unitNodes n).filter (keeps lib category))) := by
  have hunits : ∀ x ∈ outermost (hasLocal "TranslationUnit".toList) 0 n.children,
      filterUnit lib xml category (rangeAt (x.1 + (rangeAt pos n).childrenStart) x.2) =
        if keeps lib category x.2 = true then x.2.render else [] := fun x hx =>
    filterUnit_eq documented (outer_at hstands hwell x hx) category
  unfold filterUnitsInLanguage
  rw [findRanges_eq documented hstands hwell hplain]
  show Except.ok _ = _
  unfold outerRanges unitNodes outer
  rw [← render_filter, List.flatMap_map, List.flatMap_map, List.flatMap_congr hunits]

theorem filterLanguage_eq (hstands : Stands xml pos n.render) (hwell : n.WellFormed)
    (hplain : ∀ u ∈ unitNodes n, u.Plain) (category : TranslationCategory) :
    filterLanguage lib xml category (rangeAt pos n) =
      .ok ((translatedLanguage lib category n).elim [] Node.render) := by
  have hwritten : ∀ u ∈ (unitNodes n).filter (keeps lib category), u.render ≠ [] := by
    intro u hu
    obtain ⟨x, hx, rfl⟩ := List.mem_map.mp (List.mem_of_mem_filter hu)
    obtain ⟨e, hhead, _⟩ := (outer_at hstands hwell x hx).named
    exact head_render hhead
  unfold filterLanguage
  rw [filterUnits_eq documented hstands hwell hplain]
  show Except.ok (if render ((unitNodes n).filter (keeps lib category)) = [] then [] else _) = _
  cases n with
  | token t =>
    have hnone : unitNodes (.token t) = [] := by
      unfold unitNodes outer
      rw [Node.children, outermost, List.map_nil]
    rw [hnone, List.filter_nil, if_pos render_nil]
    rfl
  | element tag children spaces =>
    unfold translatedLanguage
    by_cases hunits : (unitNodes (.element tag children spaces)).filter (keeps lib category) = []
    · rw [if_pos ((render_eq_nil hwritten).mpr hunits)]
      simp only [hunits, if_pos]
      rfl
    · obtain ⟨hstart, _, hend⟩ := node_stands hstands
      have hclose : slice xml (rangeAt pos (.element tag children spaces)).innerEnd
          (rangeAt pos (.element tag children spaces)).outerEnd = closing tag spaces := by
        have h := slice_stands hend
        rwa [Nat.add_assoc, ← List.length_append, ← Node.render] at h
      rw [if_neg (mt (render_eq_nil hwritten).mp hunits), hclose]
      simp only [if_neg hunits, Option.elim_some, Node.render]
      exact congrArg (fun s => Except.ok (s ++ _ ++ _)) (slice_stands hstart)

/-- The translations are the source text of the translated languages. -/
theorem filterTranslations_eq (hstands : Stands xml pos n.render) (hwell : n.WellFormed)
    (hplain : PlainTranslations n) (category : TranslationCategory) :
    filterTranslations lib xml (rangeAt pos n) category =
      .ok ((translatedLanguages lib category n).elim [] Node.render) := by
  have hlanguages : ∀ x ∈ outermost (hasLocal "Language".toList) 0 n.children,
      filterLanguage lib xml category (rangeAt (x.1 + (rangeAt pos n).childrenStart) x.2) =
        .ok ((translatedLanguage lib category x.2).elim [] Node.render) := fun x hx =>
    have h := outer_at hstands hwell x hx
    filterLanguage_eq documented h.stands h.wellFormed
      (hplain.unit x.2 (List.mem_map_of_mem hx)) category
  have hranges : (outerRanges (rangeAt pos n).childrenStart
      (outermost (hasLocal "Language".toList) 0 n.children)).mapM
        (filterLanguage lib xml category) = .ok ((languageNodes n).map fun l =>
          (translatedLanguage lib category l).elim [] Node.render) := by
    unfold outerRanges languageNodes outer
    rw [List.mapM_map, List.map_map]
    exact mapM_ok hlanguages
  have hwritten : ∀ m ∈ (languageNodes n).filterMap (translatedLanguage lib category),
      m.render ≠ [] := by
    intro m hm
    obtain ⟨l, _, hl⟩ := List.mem_filterMap.mp hm
    exact translatedLanguage_render hl
  unfold filterTranslations
  rw [findRanges_eq documented hstands hwell hplain.language, ok_bind, hranges, ok_bind]
  show Except.ok (if ((languageNodes n).map _).flatten = [] then _ else _) = _
  rw [← List.flatMap_def, render_filterMap]
  unfold translatedLanguages
  by_cases hnone : (languageNodes n).filterMap (translatedLanguage lib category) = []
  · rw [if_pos ((render_eq_nil hwritten).mpr hnone)]
    simp only [hnone, if_pos]
    rfl
  · rw [if_neg (mt (render_eq_nil hwritten).mp hnone)]
    simp only [if_neg hnone, Option.elim_some, Node.render]
    rfl

end

end KnxRs.Split
