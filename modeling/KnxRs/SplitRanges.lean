import KnxRs.Split

set_option autoImplicit false

/-!
# Ranges of children

The search for a child counts the open elements of its name. It finds the first element of the
name that has both tags, wherever it stands, and its range is all of its source text.
-/
namespace KnxRs.Split
open Texts TextSearch XmlDocuments SourceTrees Renumber

/-! ## Slices -/

theorem slice_between (pre s post : Text) :
    slice (pre ++ (s ++ post)) pre.length (pre.length + s.length) = s := by
  unfold slice
  rw [← List.append_assoc, ← List.length_append, List.take_left, List.drop_left]

theorem afterTag_eq {body : Text} (h : '>' ∉ body) (pre post : Text) :
    afterTag (pre ++ (body ++ '>' :: post)) pre.length =
      some (pre.length + body.length + 1) := by
  unfold afterTag
  rw [List.drop_left, find_char h]
  rfl

theorem afterTag_mem {s : Text} (h : '>' ∈ s) (pre : Text) :
    ∃ n, afterTag (pre ++ s) pre.length = some n ∧ pre.length < n ∧ n ≤ pre.length + s.length := by
  obtain ⟨body, post, rfl, hbody⟩ := List.eq_append_cons_of_mem h
  refine ⟨_, afterTag_eq hbody pre post, by omega, ?_⟩
  rw [List.length_append, List.length_cons]
  omega

theorem isName_plain {name : Text} (h : IsName name) : '>' ∉ name :=
  fun hc => absurd (h.2 _ hc) (by decide)

theorem isSpaces_plain {s : Text} (h : IsSpaces s) : '>' ∉ s :=
  fun hc => absurd (h _ hc) (by decide)

theorem closing_eq (tag : Tag) (spaces : Text) :
    closing tag spaces = ('<' :: '/' :: tag.name ++ spaces) ++ ['>'] := by
  unfold closing Token.render
  rfl

theorem afterTag_closing {tag : Tag} {spaces : Text} (hname : IsName tag.name)
    (hspaces : IsSpaces spaces) (pre post : Text) :
    afterTag (pre ++ (closing tag spaces ++ post)) pre.length =
      some (pre.length + (closing tag spaces).length) := by
  have hbody : '>' ∉ '<' :: '/' :: tag.name ++ spaces := by
    simp [isName_plain hname, isSpaces_plain hspaces]
  rw [closing_eq, List.append_assoc _ ['>'] post]
  show afterTag (pre ++ (_ ++ '>' :: post)) _ = _
  rw [afterTag_eq hbody]
  simp only [List.length_append, List.length_singleton, Nat.add_assoc]

/-! ## Elements of a name -/

def hasLocal (name tagName : Text) : Bool := localName tagName = name

section
variable (xml : Text) (offset : Nat) (name : Text)

theorem childRangeFrom_empty (s : Scan) (pos : Nat) (e : Element)
    (rest : List (Nat × TagEvent)) : childRangeFrom xml offset name s ((pos, .empty e) :: rest) =
      childRangeFrom xml offset name s rest := by
  rw [childRangeFrom]

theorem childRangeFrom_token (s : Scan) (pos : Nat) (t : Token)
    (rest : List (Nat × TagEvent)) :
    childRangeFrom xml offset name s ((Node.token t).events pos ++ rest) =
      childRangeFrom xml offset name s rest := by
  rw [Node.events]
  cases t with
  | tag t => exact childRangeFrom_empty xml offset name s pos t.element rest
  | text _ | comment _ | cdata _ | instruction _ | declaration _ | endTag _ _ => rfl

theorem childRangeFrom_other {tag : Tag} (h : localName tag.name ≠ name) (s : Scan) (pos : Nat)
    (rest : List (Nat × TagEvent)) :
    childRangeFrom xml offset name s ((pos, .start tag.element) :: rest) =
        childRangeFrom xml offset name s rest ∧
      childRangeFrom xml offset name s ((pos, .close tag.name) :: rest) =
        childRangeFrom xml offset name s rest := by
  constructor
  · rw [childRangeFrom]
    exact if_neg h
  · rw [childRangeFrom]
    exact if_neg h

theorem childRangeFrom_nested {tag : Tag} (h : localName tag.name = name) {s : Scan}
    (hs : 0 < s.depth) (pos : Nat) (rest : List (Nat × TagEvent)) :
    childRangeFrom xml offset name s ((pos, .start tag.element) :: rest) =
        childRangeFrom xml offset name { s with depth := s.depth + 1 } rest ∧
      childRangeFrom xml offset name { s with depth := s.depth + 1 }
          ((pos, .close tag.name) :: rest) =
        childRangeFrom xml offset name s rest := by
  constructor
  · rw [childRangeFrom]
    exact (if_pos h).trans (if_neg (by omega))
  · rw [childRangeFrom]
    exact (if_pos h).trans (if_neg (by dsimp only; omega))

mutual

theorem inside_node {s : Scan} (hs : 0 < s.depth) (pos : Nat) (rest : List (Nat × TagEvent)) :
    (n : Node) → childRangeFrom xml offset name s (n.events pos ++ rest) =
      childRangeFrom xml offset name s rest
  | .token t => childRangeFrom_token xml offset name s pos t rest
  | .element tag children spaces => by
    rw [Node.events, List.append_assoc, List.cons_append, List.singleton_append]
    by_cases hname : localName tag.name = name
    · have hnested := childRangeFrom_nested xml offset name hname hs
      rw [(hnested _ _).1, inside (Nat.succ_pos _) _ _ children, (hnested _ _).2]
    · have hother := childRangeFrom_other xml offset name hname s
      rw [(hother _ _).1, inside hs _ _ children, (hother _ _).2]

theorem inside {s : Scan} (hs : 0 < s.depth) (pos : Nat) (rest : List (Nat × TagEvent)) :
    (ns : List Node) → childRangeFrom xml offset name s (events pos ns ++ rest) =
      childRangeFrom xml offset name s rest
  | [] => by rw [events_nil, List.nil_append]
  | n :: ns => by
    rw [events_cons, List.append_assoc, inside_node hs _ _ n, inside hs _ _ ns]

end

mutual

theorem pass_node (s : Scan) (pos : Nat) (rest : List (Nat × TagEvent)) :
    (n : Node) → n.mentions (hasLocal name) = false →
      childRangeFrom xml offset name s (n.events pos ++ rest) =
        childRangeFrom xml offset name s rest
  | .token t, _ => childRangeFrom_token xml offset name s pos t rest
  | .element tag children spaces, h => by
    rw [Node.mentions, Bool.or_eq_false_iff] at h
    have hother := childRangeFrom_other xml offset name (of_decide_eq_false h.1) s
    rw [Node.events, List.append_assoc, List.cons_append, List.singleton_append, (hother _ _).1,
      pass s _ _ children h.2, (hother _ _).2]

theorem pass (s : Scan) (pos : Nat) (rest : List (Nat × TagEvent)) :
    (ns : List Node) → mentions (hasLocal name) ns = false →
      childRangeFrom xml offset name s (events pos ns ++ rest) =
        childRangeFrom xml offset name s rest
  | [], _ => by rw [events_nil, List.nil_append]
  | n :: ns, h => by
    rw [mentions, Bool.or_eq_false_iff] at h
    rw [events_cons, List.append_assoc, pass_node s _ _ n h.1, pass s _ _ ns h.2]

end

end

/-! ## The first element of the name -/

theorem render_gt (tag : Tag) : '>' ∈ tag.render := by
  unfold Tag.render
  exact List.mem_append_right _ List.mem_cons_self

/-- The range of an element: its start tag seems to end at the first `>`. -/
theorem childRangeFrom_found {name : Text} {tag : Tag} {children : List Node} {spaces : Text}
    (hname : localName tag.name = name) (wellFormed : (Node.element tag children spaces).WellFormed)
    {pre : Text} (post : Text) {pos offset : Nat} (hpos : pos + offset = pre.length)
    (rest : List (Nat × TagEvent)) :
    ∃ childrenStart, afterTag (pre ++ ((Node.element tag children spaces).render ++ post))
        pre.length = some childrenStart ∧
      childRangeFrom (pre ++ ((Node.element tag children spaces).render ++ post)) offset name
          .initial ((Node.element tag children spaces).events pos ++ rest) =
        some ⟨pre.length, childrenStart, pre.length + (tag.render ++ render children).length,
          pre.length + (Node.element tag children spaces).render.length⟩ := by
  have hrender : (Node.element tag children spaces).render =
      tag.render ++ render children ++ closing tag spaces := by rw [Node.render]
  obtain ⟨childrenStart, hafter, _, _⟩ := afterTag_mem (s := tag.render ++ (render children ++
    (closing tag spaces ++ post))) (List.mem_append_left _ (render_gt tag)) pre
  have hxml : pre ++ ((Node.element tag children spaces).render ++ post) =
      pre ++ (tag.render ++ (render children ++ (closing tag spaces ++ post))) := by
    rw [hrender]
    simp only [List.append_assoc]
  have hclose : afterTag (pre ++ ((Node.element tag children spaces).render ++ post))
      (pre.length + (tag.render ++ render children).length) =
        some (pre.length + (Node.element tag children spaces).render.length) := by
    rw [Node.WellFormed] at wellFormed
    have h := afterTag_closing wellFormed.1.name wellFormed.2.2.2
      (pre ++ (tag.render ++ render children)) post
    rw [hrender]
    simp only [List.append_assoc, List.length_append] at h ⊢
    rw [h]
    simp only [Nat.add_assoc]
  refine ⟨childrenStart, hxml ▸ hafter, ?_⟩
  rw [Node.events, List.append_assoc, List.cons_append, List.singleton_append, childRangeFrom,
    show tag.element.name = tag.name from rfl, if_pos hname, hpos, hxml, hafter, ← hxml]
  show childRangeFrom _ offset name ⟨1, some pre.length, some childrenStart⟩ _ = _
  rw [inside _ offset name Nat.one_pos, childRangeFrom, if_pos hname]
  have hend : pos + (tag.render ++ render children).length + offset =
      pre.length + (tag.render ++ render children).length := by omega
  rw [hend, hclose]
  rfl

end KnxRs.Split
