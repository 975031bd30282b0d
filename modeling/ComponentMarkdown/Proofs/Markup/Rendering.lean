import ComponentMarkdown.Markup.Writer
import ComponentMarkdown.Proofs.Doc.TagKind
import ComponentMarkdown.Proofs.Markup.Placement

namespace ComponentMarkdown

namespace Writer

/-- The tags that are written as something else than a component where they stand on lines of their own. -/
def blockTags : List String :=
  ["p", "h1", "h2", "h3", "h4", "h5", "h6", "hr", "blockquote", "ul", "ol", "pre", "html", "style"]

/-- The number of the first item of an ordered list. -/
def startOf (attrs : Attrs) : Nat := ((attrs.get? "start").bind Value.asNat?).getD 1

/-- What stands between the items of a list and inside them. -/
def separatorOf (items : List Rendered) : List Char :=
  if items.any (fun item => holdsParagraph item.node) then blankLine else ['\n']

theorem separatorOf_cases (items : List Rendered) : separatorOf items = ['\n'] ∨ separatorOf items = blankLine := by
  rw [separatorOf]
  split
  · exact Or.inr rfl
  · exact Or.inl rfl

/-- What stands behind the mark of an item. -/
def itemContent (separator : List Char) (depth : Nat) (item : Rendered) : List Char :=
  if item.node.tag? = some "li" then item.rendering.content depth separator else blocks [item] depth separator

/-- An item behind its mark. -/
def itemText (mark content : List Char) : List Char := mark ++ indentContinuation mark.length content

theorem list_eq (ordered : Bool) (start : Nat) (items : List Rendered) (depth : Nat) :
    list ordered start items depth = Text.join (separatorOf items) (items.zipIdx.map fun entry =>
      itemText (itemMark ordered start entry.2) (itemContent (separatorOf items) depth entry.1)) := by
  rw [list, List.mapIdx_eq_zipIdx_map]
  rfl

end Writer

namespace Node

theorem renderAll_eq_map (nodes : List Node) : renderAll nodes = nodes.map render := by
  induction nodes with
  | nil => rw [renderAll, List.map_nil]
  | cons node rest ih => rw [renderAll, List.map_cons, ih]

@[simp]
theorem render_node (node : Node) : node.render.node = node := by
  cases node <;> rw [render]

theorem head?_map_render (nodes : List Node) : (nodes.map render).head?.map Rendered.node = nodes.head? := by
  cases nodes with
  | nil => rfl
  | cons node rest => rw [List.map_cons, List.head?_cons, Option.map_some, render_node, List.head?_cons]

theorem fixedPlacement?_of_component {tag : String} (meaning : TagKind.ofTag tag = .component) (attrs : Attrs)
    (children : List Node) : (element tag attrs children).fixedPlacement? = none := by
  have inline : ∀ other ∈ Placement.inlineTags, TagKind.ofTag other ≠ .component := by decide
  have block : ∀ other ∈ Placement.blockTags, TagKind.ofTag other ≠ .component := by decide
  rw [fixedPlacement?, Placement.ofTag?, if_neg fun listed => inline tag listed meaning,
    if_neg fun listed => block tag listed meaning]

theorem block_render_of_not_mem {tag : String} (other : tag ∉ Writer.blockTags) (attrs : Attrs)
    (children : List Node) (depth : Nat) : (element tag attrs children).render.rendering.block depth =
      some (Writer.component tag attrs (children.map render) depth) := by
  rw [render, renderAll_eq_map]
  simp only [Writer.blockElement]
  split
  case h_15 => rfl
  all_goals exact absurd (by decide) other

/-- An element without a fixed place is a component where it stands on lines of its own. -/
theorem block_render_of_place {tag : String} (place : Placement.ofTag? tag = none) (attrs : Attrs)
    (children : List Node) (depth : Nat) : (element tag attrs children).render.rendering.block depth =
      some (Writer.component tag attrs (children.map render) depth) := by
  have placed : ∀ other ∈ Writer.blockTags, Placement.ofTag? other ≠ none := by decide
  exact block_render_of_not_mem (fun listed => placed tag listed place) attrs children depth

theorem block_render_component {tag : String} (meaning : TagKind.ofTag tag = .component) (attrs : Attrs)
    (children : List Node) (depth : Nat) :
    (element tag attrs children).render.rendering.block depth =
      some (Writer.component tag attrs (children.map render) depth) :=
  block_render_of_place (fixedPlacement?_of_component meaning attrs children) attrs children depth

theorem block_render_list {tag : String} (isList : tag = "ul" ∨ tag = "ol") (attrs : Attrs) (items : List Node)
    (depth : Nat) : (Node.element tag attrs items).render.rendering.block depth =
      some (Writer.list (tag = "ol") (Writer.startOf attrs) (items.map render) depth) := by
  rw [render, Node.renderAll_eq_map]
  rcases isList with rfl | rfl
  · rfl
  · rfl

/-- A block behind other nodes does not decide which of them are inline. -/
theorem isInlineBetween_head?_append {node : Node} (apart : node.fixedPlacement? ≠ some .inline)
    (before : Option Node) (first : Node) (more rest : List Node) :
    isInlineBetween before first (more ++ node :: rest).head? = isInlineBetween before first more.head? := by
  cases more with
  | cons => rfl
  | nil =>
    rw [isInlineBetween_eq, isInlineBetween_eq, List.nil_append, List.head?_cons, List.head?_nil]
    have next : neighbourPlace (some node) ≠ some .inline := apart
    rw [decide_eq_false next]
    rfl

theorem isInlineBetween_behind {node : Node} (apart : node.fixedPlacement? ≠ some .inline) (next : Node)
    (after : Option Node) : isInlineBetween (some node) next after = isInlineBetween none next after := by
  have before : neighbourPlace (some node) ≠ some .inline := apart
  rw [isInlineBetween_eq, isInlineBetween_eq, decide_eq_false before]
  rfl

end Node

namespace Writer

open Node (render)

/-- A sibling list is written piece by piece around a block. -/
theorem blockParts_append {node : Node} {rest : List Node} (apart : node.fixedPlacement? ≠ some .inline)
    (front : List Node) (before : Option Node)
    (block : Node.isInlineBetween (front.getLast?.or before) node rest.head? = false) (depth : Nat)
    (line : Option (List Char)) :
    blockParts depth line before ((front ++ node :: rest).map render) =
      blockParts depth line before (front.map render) ++ (node.render.rendering.block depth).toList ++
        blockParts depth none (some node) (rest.map render) := by
  induction front generalizing before line with
  | nil =>
    rw [List.getLast?_nil, Option.none_or] at block
    rw [List.nil_append, List.map_cons, blockParts, Node.render_node, Node.head?_map_render, block]
    simp only [Bool.false_eq_true, if_false, List.map_nil, blockParts]
  | cons first more ih =>
    have last : (more.getLast?.or (some first)) = (first :: more).getLast?.or before := by
      rw [List.getLast?_cons]
      cases more.getLast? <;> rfl
    rw [← last] at block
    rw [List.cons_append, List.map_cons, List.map_cons, blockParts, blockParts, Node.render_node,
      Node.head?_map_render, Node.head?_map_render, Node.isInlineBetween_head?_append apart]
    split
    · exact ih (some first) block _
    · simp only [ih (some first) block, List.append_assoc]

/-- What stands behind a block is written as if nothing stood in front of it. -/
theorem blockParts_behind {node : Node} (apart : node.fixedPlacement? ≠ some .inline) (depth : Nat)
    (rest : List Node) :
    blockParts depth none (some node) (rest.map render) = blockParts depth none none (rest.map render) := by
  cases rest with
  | nil => rfl
  | cons next more =>
    rw [List.map_cons, blockParts, blockParts, Node.isInlineBetween_behind apart]

end Writer

end ComponentMarkdown
