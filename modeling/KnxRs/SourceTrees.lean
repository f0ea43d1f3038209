import KnxRs.XmlDocuments

set_option autoImplicit false

/-!
# Source trees

The nodes of a document with all the text they are written as, the tags that a reader reports
of them, and where each of these begins.
-/
namespace KnxRs.SourceTrees
open Texts XmlDocuments

/-- An element with both tags, or a token that is a node of its own. -/
inductive Node where
  | token (t : Token)
  | element (tag : Tag) (children : List Node) (spaces : Text)

/-- A tag as a reader reports it. -/
inductive TagEvent where
  | start (e : Element)
  | empty (e : Element)
  | close (name : Text)
  deriving DecidableEq

/-- The tags of a text up to its end or to an error, each with the position before it. -/
abbrev TagReader := Text → List (Nat × TagEvent)

def closing (tag : Tag) (spaces : Text) : Text := (Token.endTag tag.name spaces).render

mutual

def Node.render : Node → Text
  | .token t => t.render
  | .element tag children spaces => tag.render ++ render children ++ closing tag spaces

def render : List Node → Text
  | [] => []
  | n :: ns => n.render ++ render ns

end

def tokenEvents (pos : Nat) : Token → List (Nat × TagEvent)
  | .tag t => [(pos, .empty t.element)]
  | _ => []

mutual

/-- What a reader reports of a node that begins at `pos`. -/
def Node.events (pos : Nat) : Node → List (Nat × TagEvent)
  | .token t => tokenEvents pos t
  | .element tag children _ =>
    (pos, .start tag.element) :: events (pos + tag.render.length) children ++
      [(pos + (tag.render ++ render children).length, .close tag.name)]

def events (pos : Nat) : List Node → List (Nat × TagEvent)
  | [] => []
  | n :: ns => n.events pos ++ events (pos + n.render.length) ns

end

@[simp] theorem render_nil : render [] = [] := by rw [render]

@[simp] theorem render_cons (n : Node) (ns : List Node) :
    render (n :: ns) = n.render ++ render ns := by rw [render]

@[simp] theorem events_nil (pos : Nat) : events pos [] = [] := by rw [events]

@[simp] theorem events_cons (pos : Nat) (n : Node) (ns : List Node) :
    events pos (n :: ns) = n.events pos ++ events (pos + n.render.length) ns := by rw [events]

theorem render_append (ns ms : List Node) : render (ns ++ ms) = render ns ++ render ms := by
  induction ns with
  | nil => rw [List.nil_append, render_nil, List.nil_append]
  | cons n ns ih => rw [List.cons_append, render_cons, render_cons, ih, List.append_assoc]

theorem events_append (pos : Nat) (ns ms : List Node) :
    events pos (ns ++ ms) = events pos ns ++ events (pos + (render ns).length) ms := by
  induction ns generalizing pos with
  | nil => simp
  | cons n ns ih =>
    rw [List.cons_append, events_cons, events_cons, ih, render_cons, List.length_append,
      Nat.add_assoc, List.append_assoc]

/-! ## Elements with both tags -/

mutual

/-- Some element that has both tags has such a name. -/
def Node.mentions (p : Text → Bool) : Node → Bool
  | .token _ => false
  | .element tag children _ => p tag.name || mentions p children

def mentions (p : Text → Bool) : List Node → Bool
  | [] => false
  | n :: ns => n.mentions p || mentions p ns

end

/-! ## Well-formed nodes -/

/-- A token that is a node: neither an end tag nor a start tag. -/
def Standing : Token → Prop
  | .endTag _ _ => False
  | .tag t => t.selfClosing = true
  | _ => True

mutual

def Node.WellFormed : Node → Prop
  | .token t => t.WellFormed ∧ Standing t
  | .element tag children spaces =>
    tag.WellFormed ∧ tag.selfClosing = false ∧ WellFormed children ∧ IsSpaces spaces

def WellFormed : List Node → Prop
  | [] => True
  | n :: ns => n.WellFormed ∧ WellFormed ns

end

/-- The tags of well-formed nodes are reported. -/
def TagReader.Documented (reader : TagReader) : Prop :=
  ∀ nodes, WellFormed nodes → reader (render nodes) = events 0 nodes

end KnxRs.SourceTrees
