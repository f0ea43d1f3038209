import KnxRs.SourceTrees

set_option autoImplicit false

/-!
# Outermost nodes

The nodes whose tags have a name of some kind and that stand in no other such element, with
their positions in the source text.
-/
namespace KnxRs.SourceTrees
open Texts XmlDocuments

/-! ## Positions -/

def Stands (xml : Text) (pos : Nat) (s : Text) : Prop :=
  ∃ pre post, xml = pre ++ (s ++ post) ∧ pre.length = pos

theorem Stands.append {xml a b : Text} {pos : Nat} (h : Stands xml pos (a ++ b)) :
    Stands xml pos a ∧ Stands xml (pos + a.length) b := by
  obtain ⟨pre, post, rfl, rfl⟩ := h
  constructor
  · exact ⟨pre, b ++ post, by rw [List.append_assoc], rfl⟩
  · exact ⟨pre ++ a, post, by simp only [List.append_assoc], List.length_append⟩

theorem Stands.inside {xml outer s : Text} {pos k : Nat} (h : Stands xml pos outer)
    (hs : Stands outer k s) : Stands xml (pos + k) s := by
  obtain ⟨pre, post, rfl, rfl⟩ := h
  obtain ⟨before, after, rfl, rfl⟩ := hs
  exact ⟨pre ++ before, after ++ post, by simp only [List.append_assoc], List.length_append⟩

/-! ## Tags and children of a node -/

namespace Node

/-- What a reader reports of its first tag. -/
def head : Node → Option Element
  | .token (.tag t) => some t.element
  | .token _ => none
  | .element tag _ _ => some tag.element

def children : Node → List Node
  | .token _ => []
  | .element _ children _ => children

def Plain : Node → Prop
  | .token (.tag t) => '>' ∉ t.body
  | .token _ => True
  | .element tag _ _ => '>' ∉ tag.body

theorem events_head {n : Node} {e : Element} (h : n.head = some e) (pos : Nat) :
    ∃ event rest, n.events pos = (pos, event) :: rest ∧ (event = .start e ∨ event = .empty e) := by
  cases n with
  | token t =>
    cases t with
    | tag t =>
      cases h
      exact ⟨_, [], by rw [Node.events]; rfl, .inr rfl⟩
    | text _ | comment _ | cdata _ | instruction _ | declaration _ | endTag _ _ => cases h
  | element tag children spaces =>
    cases h
    exact ⟨_, _, by rw [Node.events, List.cons_append], .inl rfl⟩

theorem children_wellFormed {n : Node} (h : n.WellFormed) :
    SourceTrees.WellFormed n.children := by
  cases n with
  | token t =>
    unfold children
    rw [SourceTrees.WellFormed]
    trivial
  | element tag children spaces =>
    rw [Node.WellFormed] at h
    exact h.2.2.1

end Node

/-! ## Outermost nodes -/

section
variable (p : Text → Bool)

mutual

def Node.outermost (pos : Nat) : Node → List (Nat × Node)
  | .token (.tag t) => if p t.name then [(pos, .token (.tag t))] else []
  | .token _ => []
  | .element tag children spaces =>
    if p tag.name then [(pos, .element tag children spaces)]
    else outermost (pos + tag.render.length) children

def outermost (pos : Nat) : List Node → List (Nat × Node)
  | [] => []
  | n :: ns => n.outermost pos ++ outermost (pos + n.render.length) ns

end

def outer (ns : List Node) : List Node := (outermost p 0 ns).map Prod.snd

/-- Such a node of `xml`, as it is written there. -/
structure Outer (xml : Text) (x : Nat × Node) : Prop where
  stands : Stands xml x.1 x.2.render
  wellFormed : x.2.WellFormed
  named : ∃ e, x.2.head = some e ∧ p e.name = true

theorem node_stands {xml : Text} {pos : Nat} {tag : Tag} {children : List Node} {spaces : Text}
    (h : Stands xml pos (Node.element tag children spaces).render) :
    Stands xml pos tag.render ∧ Stands xml (pos + tag.render.length) (render children) ∧
      Stands xml (pos + (tag.render ++ render children).length) (closing tag spaces) := by
  rw [Node.render] at h
  exact ⟨h.append.1.append.1, h.append.1.append.2, h.append.2⟩

mutual

theorem Node.outermost_outer {xml : Text} (pos : Nat) : (n : Node) → n.WellFormed →
    Stands xml pos n.render → ∀ x ∈ n.outermost p pos, Outer p xml x
  | .token t, hwell, hstands, x, hx => by
    cases t with
    | tag t =>
      rw [Node.outermost] at hx
      split_ifs at hx with hp
      · rw [List.mem_singleton] at hx
        subst hx
        exact ⟨hstands, hwell, _, rfl, hp⟩
      · cases hx
    | text _ | comment _ | cdata _ | instruction _ | declaration _ | endTag _ _ =>
      simp [Node.outermost] at hx
  | .element tag children spaces, hwell, hstands, x, hx => by
    rw [Node.outermost] at hx
    split_ifs at hx with hp
    · rw [List.mem_singleton] at hx
      subst hx
      exact ⟨hstands, hwell, _, rfl, hp⟩
    · rw [Node.WellFormed] at hwell
      exact outermost_outer _ children hwell.2.2.1 (node_stands hstands).2.1 x hx

theorem outermost_outer {xml : Text} (pos : Nat) : (ns : List Node) → WellFormed ns →
    Stands xml pos (render ns) → ∀ x ∈ outermost p pos ns, Outer p xml x
  | [], _, _, x, hx => by
    rw [outermost] at hx
    cases hx
  | n :: ns, hwell, hstands, x, hx => by
    rw [WellFormed] at hwell
    rw [render_cons] at hstands
    rw [outermost, List.mem_append] at hx
    rcases hx with hx | hx
    · exact Node.outermost_outer pos n hwell.1 hstands.append.1 x hx
    · exact outermost_outer _ ns hwell.2 hstands.append.2 x hx

end

end

end KnxRs.SourceTrees
