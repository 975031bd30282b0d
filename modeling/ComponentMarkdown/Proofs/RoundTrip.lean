import ComponentMarkdown.Platform
import ComponentMarkdown.Proofs.Doc.BlockRoundTrip
import ComponentMarkdown.RoundTrip

namespace ComponentMarkdown

namespace Tree

/-- Equality of trees with attributes compared as maps. -/
structure Alike (tree other : Tree) : Prop where
  nodes : Node.AllAlike tree.nodes other.nodes
  frontmatter : tree.frontmatter = other.frontmatter
  metadata : tree.metadata = other.metadata

end Tree

namespace Doc

theorem ofTree_eq [Surroundings] (tree : Tree) (emoji : Bool) :
    ofTree tree emoji = ⟨frontmatterNode tree ::
      ((Reading.blocks (tree.nodes.map (Node.reading emoji))).run .empty).1⟩ := by
  rw [ofTree, Node.readings_eq_map]
  rfl

/-- A tree of a single paragraph. -/
theorem ofTree_paragraph_eq [Surroundings] {tree : Tree} {attrs : Attrs} {nodes : List Node}
    (single : tree.nodes = [.element "p" attrs nodes]) (emoji : Bool) :
    ofTree tree emoji = ⟨[frontmatterNode tree,
      .paragraph false ((Reading.line (nodes.map (Node.reading emoji))).run .empty).1]⟩ := by
  have outside : Node.isInlineBetween none (.element "p" attrs nodes) none = false := rfl
  rw [ofTree_eq, single, List.map_singleton, Reading.blocks, Reading.blocksFrom, Node.reading_node, List.head?_nil,
    Option.map_none, outside, Node.block_element]
  rfl

theorem frontmatterNode_eq (tree : Tree) :
    ∃ data error, frontmatterNode tree = .frontmatter data error tree.metadata := by
  unfold frontmatterNode
  split
  · exact ⟨_, _, rfl⟩
  · exact ⟨_, _, rfl⟩
  · exact ⟨_, _, rfl⟩

/-- The frontmatter node is written as nothing. -/
theorem blocks_frontmatterNode [Surroundings] (tree : Tree) (docs : List DocNode) :
    Writing.blocks ((frontmatterNode tree :: docs).map DocNode.writing) =
    Writing.blocks (docs.map DocNode.writing) := by
  obtain ⟨data, error, same⟩ := frontmatterNode_eq tree
  rw [same, List.map_cons, Writing.blocks, Writing.blocksFrom_cons rfl, DocNode.writing_block]
  rfl

/-- The frontmatter and the metadata of a tree are kept, unless the frontmatter is `null`. -/
theorem toTree_frontmatterNode [Surroundings] {tree : Tree} (some : tree.frontmatter.isNull = false)
    (docs : List DocNode) : (toTree ⟨frontmatterNode tree :: docs⟩).frontmatter = tree.frontmatter ∧
      (toTree ⟨frontmatterNode tree :: docs⟩).metadata = tree.metadata := by
  obtain ⟨nodes, frontmatter, metadata⟩ := tree
  cases frontmatter with
  | null => cases some
  | _ => exact ⟨rfl, rfl⟩

end Doc

namespace Tree

/-- Canonical markup comes back from the editor as it was, with new anchors on its headings, whether
shortcodes are replaced or not. -/
theorem throughEditor_alike [Surroundings] (tree : Tree) (canonical : tree.isCanonical = true) (emoji : Bool) :
    (tree.throughEditor emoji).Alike tree.anchored := by
  rw [isCanonical, Bool.and_eq_true, Bool.not_eq_true'] at canonical
  obtain ⟨some, blocks⟩ := canonical
  have both := Node.blocksRestore emoji blocks .empty
  have kept := Doc.toTree_frontmatterNode some
    ((Reading.blocks (tree.nodes.map (Node.reading emoji))).run .empty).1
  rw [throughEditor, Doc.ofTree_eq]
  refine ⟨?_, kept.1, kept.2⟩
  rw [Node.allAlike_iff, Doc.toTree_nodes, Doc.blocks_frontmatterNode]
  exact (both.2 .empty).1

/-- Two headings that get the same slug but for its number, and a link between blocks. -/
theorem throughEditor_alike_page :
    letI : Surroundings := .platform
    (throughEditor ⟨[.element "h2" [("class", .str "x")] [.text "One :tada:"],
        .text "See ", .element "a" [("href", .str "https://a.b")] [.element "em" [] [.text "it"]],
        .element "h2" [] [.text "One tada"]], .obj [], []⟩ true).Alike
      ⟨[.element "h2" [("id", .str "one-tada")] [.text "One :tada:"],
        .text "See ", .element "a" [("href", .str "https://a.b")] [.element "em" [] [.text "it"]],
        .element "h2" [("id", .str "one-tada-1")] [.text "One tada"]], .obj [], []⟩ :=
  @throughEditor_alike .platform _ (by decide) true

end Tree

end ComponentMarkdown
