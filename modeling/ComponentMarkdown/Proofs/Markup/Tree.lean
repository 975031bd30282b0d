import ComponentMarkdown.Markup.Node
import Mathlib.Data.List.Forall2
import Mathlib.Data.List.Perm.Basic

namespace ComponentMarkdown.Node

theorem sizeOf_child_lt {tag : String} {attrs : Attrs} {children : List Node} {child : Node}
    (member : child ∈ children) : sizeOf child < sizeOf (element tag attrs children) := by
  have smaller := List.sizeOf_lt_of_mem member
  simp only [element.sizeOf_spec]
  omega

/-- What holds of texts and comments, and of an element as soon as it holds of its children, holds of
every node. -/
theorem induction {P : Node → Prop} (text : ∀ content, P (text content))
    (comment : ∀ content, P (comment content))
    (element : ∀ tag attrs children, (∀ child ∈ children, P child) → P (element tag attrs children))
    (node : Node) : P node := by
  induction size : sizeOf node using Nat.strongRecOn generalizing node with
  | ind n ih =>
    cases node with
    | text content => exact text content
    | comment content => exact comment content
    | element tag attrs children =>
      refine element tag attrs children fun child member => ih _ ?_ child rfl
      rw [← size]
      exact sizeOf_child_lt member

mutual

/-- Equality of nodes with attributes compared as maps: the same entries in any order. -/
def Alike : Node → Node → Prop
  | .text content, .text content' => content = content'
  | .comment content, .comment content' => content = content'
  | .element tag attrs children, .element tag' attrs' children' =>
    tag = tag' ∧ attrs.Perm attrs' ∧ AllAlike children children'
  | _, _ => False

/-- Equality of sibling lists with attributes compared as maps. -/
def AllAlike : List Node → List Node → Prop
  | [], [] => True
  | node :: rest, node' :: rest' => node.Alike node' ∧ AllAlike rest rest'
  | _, _ => False

end

theorem allAlike_iff {nodes nodes' : List Node} : AllAlike nodes nodes' ↔ List.Forall₂ Alike nodes nodes' := by
  induction nodes generalizing nodes' with
  | nil => cases nodes' <;> simp [AllAlike]
  | cons node rest ih =>
    cases nodes' with
    | nil => simp [AllAlike]
    | cons node' rest' => rw [AllAlike, ih, List.forall₂_cons]

theorem alike_element_iff {tag : String} {attrs : Attrs} {children : List Node} {node : Node} :
    (element tag attrs children).Alike node ↔ ∃ attrs' children', node = element tag attrs' children' ∧
      attrs.Perm attrs' ∧ List.Forall₂ Alike children children' := by
  cases node with
  | text | comment => simp [Alike]
  | element tag' attrs' children' =>
    rw [Alike, allAlike_iff]
    constructor
    · rintro ⟨rfl, perm, below⟩
      exact ⟨attrs', children', rfl, perm, below⟩
    · rintro ⟨_, _, same, perm, below⟩
      cases same
      exact ⟨rfl, perm, below⟩

theorem Alike.element {tag : String} {attrs attrs' : Attrs} {children children' : List Node}
    (perm : attrs.Perm attrs') (below : List.Forall₂ Alike children children') :
    (element tag attrs children).Alike (.element tag attrs' children') :=
  alike_element_iff.2 ⟨attrs', children', rfl, perm, below⟩

theorem alike_text_iff {content : String} {node : Node} : (text content).Alike node ↔ node = text content := by
  cases node <;> simp [Alike, eq_comm]

theorem alike_comment_iff {content : String} {node : Node} :
    (comment content).Alike node ↔ node = comment content := by
  cases node <;> simp [Alike, eq_comm]

theorem Alike.refl (node : Node) : node.Alike node := by
  induction node using induction with
  | text content => exact alike_text_iff.2 rfl
  | comment content => exact alike_comment_iff.2 rfl
  | element tag attrs children ih => exact .element (.refl _) (List.forall₂_same.2 ih)

mutual

/-- A node and everything in it, in document order. -/
def inOrder : Node → List Node
  | .element tag attrs children => .element tag attrs children :: allInOrder children
  | node => [node]

def allInOrder : List Node → List Node
  | [] => []
  | node :: rest => node.inOrder ++ allInOrder rest

end

theorem allInOrder_eq (nodes : List Node) : allInOrder nodes = nodes.flatMap inOrder := by
  induction nodes with
  | nil => rw [allInOrder, List.flatMap_nil]
  | cons node rest ih => rw [allInOrder, ih, List.flatMap_cons]

theorem inOrder_element (tag : String) (attrs : Attrs) (children : List Node) :
    (element tag attrs children).inOrder = element tag attrs children :: children.flatMap inOrder := by
  rw [inOrder, allInOrder_eq]

theorem inOrder_text (content : String) : (text content).inOrder = [text content] := by
  rw [inOrder]
  simp

theorem inOrder_comment (content : String) : (comment content).inOrder = [comment content] := by
  rw [inOrder]
  simp

end ComponentMarkdown.Node
