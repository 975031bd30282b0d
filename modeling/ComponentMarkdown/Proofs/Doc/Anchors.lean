import ComponentMarkdown.Proofs.Doc.Leaves
import ComponentMarkdown.Proofs.Slugged

namespace ComponentMarkdown

namespace Node

mutual

/-- A node with new anchors on its headings. -/
def anchored : Node → Slugged Node
  | .element tag attrs children =>
    match TagKind.ofTag tag with
    | .heading _ => do
      let id ← (fun registry => registry.issue (textOf children) : Slugged String)
      let children ← anchorAll children
      return .element tag [("id", .str id)] children
    | _ => do
      let children ← anchorAll children
      return .element tag attrs children
  | node => return node

/-- A sibling list with new anchors on its headings. -/
def anchorAll : List Node → Slugged (List Node)
  | [] => return []
  | node :: rest => do
    let first ← node.anchored
    let rest ← anchorAll rest
    return first :: rest

end

theorem anchored_heading {tag : String} {level : Nat} (meaning : TagKind.ofTag tag = .heading level) (attrs : Attrs)
    (children : List Node) :
    (element tag attrs children).anchored = do
      let id ← (fun registry => registry.issue (textOf children) : Slugged String)
      let children ← anchorAll children
      return element tag [("id", .str id)] children := by
  rw [anchored, meaning]

theorem anchored_element {tag : String} (plain : ∀ level, TagKind.ofTag tag ≠ .heading level) (attrs : Attrs)
    (children : List Node) :
    (element tag attrs children).anchored = do
      let children ← anchorAll children
      return element tag attrs children := by
  rw [anchored]
  split
  · rename_i level meaning
    exact absurd meaning (plain level)
  · rfl

theorem anchored_text (content : String) : (text content).anchored = pure (text content) := by
  rw [anchored]
  simp

theorem anchored_comment (content : String) : (comment content).anchored = pure (comment content) := by
  rw [anchored]
  simp

theorem anchorAll_append (nodes more : List Node) :
    anchorAll (nodes ++ more) = do
      let first ← anchorAll nodes
      let rest ← anchorAll more
      return first ++ rest := by
  induction nodes with
  | nil => simp only [List.nil_append, anchorAll, pure_bind, bind_pure]
  | cons node rest ih =>
    simp only [List.cons_append, anchorAll, ih, bind_assoc, pure_bind]

theorem anchorAll_of_forall {nodes : List Node} (each : ∀ node ∈ nodes, node.anchored = pure node) :
    anchorAll nodes = pure nodes := by
  induction nodes with
  | nil => rw [anchorAll]
  | cons node rest ih =>
    obtain ⟨here, below⟩ := List.forall_mem_cons.1 each
    rw [anchorAll, here, ih below, pure_bind, pure_bind]

/-- What stands in an element of a canonical line is a canonical line or the content of formatting. -/
theorem children_of_canonical [Surroundings] {formatted : Bool} {tag : String} {attrs : Attrs}
    {children : List Node} (canonical : isCanonicalInline formatted (element tag attrs children) = true) :
    (∀ level, TagKind.ofTag tag ≠ .heading level) ∧ ∃ inner, areCanonicalInline inner children = true := by
  cases marked : (element tag attrs children).mark? with
  | some mark =>
    have meaning := TagKind.ofTag_eq_mark_iff.2 (mark?_eq_some marked).1
    exact ⟨by rw [meaning]; simp, true, (formats_of_canonical canonical marked).below⟩
  | none =>
    obtain ⟨plain, line⟩ := line_of_unmarked canonical marked
    rw [isCanonicalLine, Bool.and_eq_true] at line
    exact ⟨plain, false, line.1⟩

/-- There are no headings in a line. -/
theorem anchored_of_inline [Surroundings] {formatted : Bool} (node : Node)
    (canonical : isCanonicalInline formatted node = true) : node.anchored = pure node := by
  induction node using induction generalizing formatted with
  | text content => exact anchored_text content
  | comment content => exact anchored_comment content
  | element tag attrs children ih =>
    obtain ⟨plain, inner, below⟩ := children_of_canonical canonical
    have inside := anchorAll_of_forall fun child member => ih child member (isCanonicalInline_of_mem below member)
    rw [anchored_element plain, inside, pure_bind]

theorem anchorAll_of_line [Surroundings] {nodes : List Node} (canonical : isCanonicalLine nodes = true) :
    anchorAll nodes = pure nodes := by
  rw [isCanonicalLine, Bool.and_eq_true] at canonical
  exact anchorAll_of_forall fun node member => anchored_of_inline node (isCanonicalInline_of_mem canonical.1 member)

/-- The order of attributes makes no difference to the text. -/
theorem Alike.textContent {node other : Node} (alike : node.Alike other) :
    node.textContent = other.textContent := by
  induction node using induction generalizing other with
  | text content => rw [alike_text_iff.1 alike]
  | comment content => rw [alike_comment_iff.1 alike]
  | element tag attrs children ih =>
    obtain ⟨attrs', children', rfl, _, below⟩ := alike_element_iff.1 alike
    have same : textOf children = textOf children' := by
      clear alike
      induction below with
      | nil => rfl
      | cons first _ later =>
        rw [List.forall_mem_cons] at ih
        rw [textOf_cons, textOf_cons, ih.1 first, later ih.2]
    rw [Node.textContent, Node.textContent, same]

theorem textOf_alike {nodes others : List Node} (alike : List.Forall₂ Alike nodes others) :
    textOf nodes = textOf others := by
  induction alike with
  | nil => rfl
  | cons first _ later => rw [textOf_cons, textOf_cons, first.textContent, later]

end Node

/-- A tree with new anchors on its headings, from a registry that has issued none. -/
def Tree.anchored (tree : Tree) : Tree := { tree with nodes := ((Node.anchorAll tree.nodes).run .empty).1 }

end ComponentMarkdown
