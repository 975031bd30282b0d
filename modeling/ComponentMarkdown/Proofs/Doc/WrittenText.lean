import ComponentMarkdown.Platform
import ComponentMarkdown.Proofs.Doc.Writing
import ComponentMarkdown.Proofs.Markup.Text
import ComponentMarkdown.Proofs.Slugged

namespace ComponentMarkdown

namespace DocNode

/-- The text that a node and the texts of its children are in markup. An emoji stands for its shortcode,
a code block for its source, and what is not known for a note that says so. -/
def writtenWith : DocNode → List String → String
  | text content _, _ => content
  | emoji name _ _, _ => ":" ++ name ++ ":"
  | codeBlock _ code children, _ => code.getD (textOf children)
  | unknown kind _ _, _ => "Unknown node: " ++ kind
  | _, below => String.join below

/-- The text of a node in markup, in document order. -/
def writtenText (node : DocNode) : String := node.fold writtenWith

theorem writtenText_eq (node : DocNode) :
    node.writtenText = writtenWith node (node.children.map writtenText) := by
  unfold writtenText
  rw [fold_eq]

/-- Elements whose text is no part of the text around them. -/
def isStyleSheet : DocNode → Bool
  | element tag _ _ | inlineElement tag _ _ _ => tag = "style"
  | _ => false

/-- The text of a node is written, inside a line and among blocks. -/
structure KeepsText [Surroundings] (node : DocNode) : Prop where
  inline : Slugged.Gives (fun items => MarkedNode.textOf items = node.writtenText) node.writing.inline
  block (outside : node.isInline = false) (followsInline : Bool) :
    Slugged.Gives (fun nodes => Node.textOf nodes = node.writtenText) (node.writing.block followsInline)

/-- The text of nodes in a row. -/
def writtenTexts (nodes : List DocNode) : String := String.join (nodes.map writtenText)

theorem marked_keepsText [Surroundings] {nodes : List DocNode} (keeps : ∀ node ∈ nodes, node.KeepsText) :
    Slugged.Gives (fun items => MarkedNode.textOf items = writtenTexts nodes)
      (Writing.marked (nodes.map writing)) := by
  induction nodes with
  | nil => exact .pure rfl
  | cons node rest ih =>
    rw [List.map_cons, Writing.marked]
    refine (keeps node List.mem_cons_self).inline.bind fun items first => ?_
    refine (ih fun other member => keeps other (List.mem_cons_of_mem _ member)).bind fun tail later => ?_
    refine .pure ?_
    rw [MarkedNode.textOf_append, first, later, writtenTexts, writtenTexts, List.map_cons, String.join_cons]

theorem line_keepsText [Surroundings] {nodes : List DocNode} (keeps : ∀ node ∈ nodes, node.KeepsText) :
    Slugged.Gives (fun content => Node.textOf content = writtenTexts nodes)
      (Writing.line (nodes.map writing)) := by
  refine (marked_keepsText keeps).bind fun items same => .pure ?_
  rw [MarkedNode.textOf_line, same]

/-- The text is that of what is written, of what waits to be written as a line, and of what is left. -/
theorem blocksFrom_keepsText [Surroundings] {nodes : List DocNode} (keeps : ∀ node ∈ nodes, node.KeepsText)
    (done : List Node) (waiting : List DocNode) (keepsWaiting : ∀ node ∈ waiting, node.KeepsText) :
    Slugged.Gives (fun content => Node.textOf content =
      Node.textOf done ++ writtenTexts waiting ++ writtenTexts nodes)
      (Writing.blocksFrom done (waiting.map writing) (nodes.map writing)) := by
  induction nodes generalizing done waiting with
  | nil =>
    rw [List.map_nil, Writing.blocksFrom]
    refine (line_keepsText keepsWaiting).bind fun content same => .pure ?_
    rw [Node.textOf_append, same, writtenTexts, writtenTexts, List.map_nil, String.join_nil,
      String.append_empty]
  | cons node rest ih =>
    have keepsNode := keeps node List.mem_cons_self
    have keepsRest : ∀ other ∈ rest, other.KeepsText := fun other member =>
      keeps other (List.mem_cons_of_mem _ member)
    rw [List.map_cons, Writing.blocksFrom, writing_node]
    split
    · have keepsLonger : ∀ other ∈ waiting ++ [node], other.KeepsText := by
        intro other member
        rcases List.mem_append.1 member with before | last
        · exact keepsWaiting other before
        · rw [List.mem_singleton.1 last]
          exact keepsNode
      have later := ih keepsRest done (waiting ++ [node]) keepsLonger
      rw [List.map_append, List.map_singleton] at later
      intro registry
      rw [later registry]
      simp only [writtenTexts, List.map_append, List.map_cons, List.map_nil, String.join_append, String.join_cons,
        String.join_nil, String.append_empty, String.append_assoc]
    · rename_i outside
      refine (line_keepsText keepsWaiting).bind fun content same => ?_
      refine (keepsNode.block (by simpa using outside) _).bind fun block written => ?_
      have later := ih keepsRest (done ++ content ++ block) [] (by simp)
      intro registry
      rw [List.map_nil] at later
      rw [later registry]
      simp only [Node.textOf_append, same, written, writtenTexts, List.map_nil, String.join_nil, List.map_cons,
        String.join_cons, String.append_empty, String.append_assoc]

theorem blocks_keepsText [Surroundings] {nodes : List DocNode} (keeps : ∀ node ∈ nodes, node.KeepsText) :
    Slugged.Gives (fun content => Node.textOf content = writtenTexts nodes)
      (Writing.blocks (nodes.map writing)) := by
  have whole := blocksFrom_keepsText keeps [] [] (by simp)
  intro registry
  rw [List.map_nil] at whole
  rw [Writing.blocks, whole registry]
  simp only [Node.textOf_nil, writtenTexts, List.map_nil, String.join_nil, String.empty_append]

theorem textOf_element {tag : String} (shown : tag ≠ "style") (attrs : Attrs) (content : List Node) :
    Node.textOf [.element tag attrs content] = Node.textOf content := by
  rw [Node.textOf_cons, Node.textOf_nil, String.append_empty, Node.textContent_element shown]

theorem heading_tag_ne_style (level : Nat) : "h" ++ toString level ≠ "style" := by
  intro same
  have chars := congrArg String.toList same
  rw [String.toList_append] at chars
  have first : some 'h' = some 's' := congrArg List.head? chars
  exact absurd first (by decide)

theorem textOf_codeBlock (info : CodeFence.Info) (code : String) :
    Node.textOf [Writing.codeBlock info code] = code := by
  rw [Writing.codeBlock, textOf_element (by decide), textOf_element (by decide), Node.textOf_cons,
    Node.textOf_nil, Node.textContent_text, String.append_empty]

theorem blockOf_keepsText [Surroundings] {node : DocNode} (keeps : ∀ child ∈ node.children, child.KeepsText)
    (plain : node.isStyleSheet = false) (outside : node.isInline = false) (followsInline : Bool) :
    Slugged.Gives (fun nodes => Node.textOf nodes = node.writtenText)
      (Writing.blockOf node (node.children.map writing) followsInline) := by
  have lines := line_keepsText keeps
  have content := blocks_keepsText keeps
  rw [writtenText_eq]
  cases node
  case frontmatter => exact .pure rfl
  case paragraph synthetic children =>
    refine lines.bind fun nodes same => .pure ?_
    split
    · exact same
    · rw [textOf_element (by decide), same]
      rfl
  case heading level id children =>
    refine lines.bind fun nodes same => (Slugged.Gives.any _).bind fun anchor _ => .pure ?_
    rw [textOf_element (heading_tag_ne_style level), same]
    rfl
  case bulletList | listItem | blockquote =>
    refine content.bind fun nodes same => .pure ?_
    rw [textOf_element (by decide), same]
    rfl
  case orderedList start children =>
    refine content.bind fun nodes same => .pure ?_
    rw [textOf_element (by decide), same]
    rfl
  case horizontalRule => exact .pure (textOf_element (by decide) _ _)
  case codeBlock info code children => exact .pure (textOf_codeBlock info _)
  case element tag props children =>
    refine content.bind fun nodes same => .pure ?_
    rw [textOf_element (by simpa [isStyleSheet] using plain), same]
    rfl
  case slot name props synthetic children =>
    refine content.bind fun nodes same => ?_
    split
    · exact .pure same
    · refine .pure ?_
      rw [textOf_element (by decide), same]
      rfl
  case comment text =>
    refine .pure ?_
    rw [Node.textOf_cons, Node.textOf_nil, Node.textContent_comment]
    rfl
  case unknown kind attrs children =>
    refine .pure ?_
    rw [textOf_element (by decide), Writing.unknownText, Node.textOf_cons, Node.textOf_nil,
      Node.textContent_text, String.append_empty]
    rfl
  all_goals exact absurd outside (by simp [isInline])

theorem textOf_single (marks : List Mark) (node : Node) :
    MarkedNode.textOf [⟨marks, node⟩] = node.textContent := by
  rw [MarkedNode.textOf, List.map_singleton, Node.textOf_cons, Node.textOf_nil, String.append_empty]

theorem inlineOf_keepsText [Surroundings] {node : DocNode} (keeps : ∀ child ∈ node.children, child.KeepsText)
    (plain : node.isStyleSheet = false) :
    Slugged.Gives (fun items => MarkedNode.textOf items = node.writtenText)
      (Writing.inlineOf node (node.children.map writing)) := by
  have lines := line_keepsText keeps
  have asBlock := blockOf_keepsText keeps plain
  rw [writtenText_eq] at asBlock ⊢
  cases node
  case text | emoji => exact .pure (by rw [textOf_single, Node.textContent_text]; rfl)
  case hardBreak | image | video | binding =>
    exact .pure (by rw [textOf_single, Node.textContent_element (by decide)]; exact Node.textOf_nil)
  case link | spanStyle =>
    refine lines.bind fun nodes same => .pure ?_
    rw [textOf_single, Node.textContent_element (by decide), same]
    rfl
  case inlineElement tag props children marks =>
    refine lines.bind fun nodes same => .pure ?_
    rw [textOf_single, Node.textContent_element (by simpa [isStyleSheet] using plain), same]
    rfl
  case comment => exact .pure (by rw [textOf_single, Node.textContent_comment]; rfl)
  case unknown =>
    exact .pure (by rw [textOf_single, Writing.unknownText, Node.textContent_text]; rfl)
  all_goals
    refine (asBlock rfl false).bind fun nodes same => .pure ?_
    rw [MarkedNode.textOf, List.map_map]
    exact (congrArg Node.textOf (List.map_id nodes)).trans same

theorem keepsText [Surroundings] (node : DocNode) (plain : node.everywhere (!·.isStyleSheet) = true) :
    node.KeepsText := by
  induction node using DocNode.induction with
  | step node ih =>
    obtain ⟨here, below⟩ := everywhere_iff.1 plain
    have keeps : ∀ child ∈ node.children, child.KeepsText := fun child member =>
      ih child member (below child member)
    have noSheet : node.isStyleSheet = false := by simpa using here
    refine ⟨?_, fun outside followsInline => ?_⟩
    · rw [writing_inline]
      exact inlineOf_keepsText keeps noSheet
    · rw [writing_block]
      exact blockOf_keepsText keeps noSheet outside followsInline

end DocNode

namespace Doc

/-- The text of the markup of a document is the text of its nodes in document order, whatever stands in
what and whatever marks it carries. -/
theorem textOf_toTree [Surroundings] (doc : Doc) (plain : doc.everywhere (!·.isStyleSheet) = true) :
    Node.textOf doc.toTree.nodes = String.join (doc.content.map DocNode.writtenText) := by
  rw [toTree_nodes]
  have keeps : ∀ node ∈ doc.content, node.KeepsText := fun node member =>
    node.keepsText (everywhere_iff.1 plain node member)
  exact DocNode.blocks_keepsText keeps .empty

/-- A heading inside a line, a text among blocks, and a node that is not known. -/
theorem textOf_toTree_nested :
    letI : Surroundings := .platform
    Node.textOf (toTree ⟨[.paragraph true [.text "a " [⟨.bold, []⟩],
        .heading 2 "" [.emoji "tada" "*" [], .text " b" []]],
      .text "c" [], .unknown "mathBlock" [] [.text "d" []]]⟩).nodes =
      "a :tada: bcUnknown node: mathBlock" :=
  (@textOf_toTree .platform _ (by decide)).trans (by decide)

end Doc

end ComponentMarkdown
