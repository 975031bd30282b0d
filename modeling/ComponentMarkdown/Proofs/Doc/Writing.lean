import ComponentMarkdown.Doc.ToMarkup
import ComponentMarkdown.Proofs.Doc.Tree

namespace ComponentMarkdown

namespace DocNode

theorem writing_eq [Surroundings] (node : DocNode) : node.writing = .ofNode node (node.children.map writing) := by
  unfold writing
  rw [fold_eq]

@[simp]
theorem writing_node [Surroundings] (node : DocNode) : node.writing.node = node := by
  rw [writing_eq]
  rfl

theorem writing_block [Surroundings] (node : DocNode) (followsInline : Bool) :
    node.writing.block followsInline = Writing.blockOf node (node.children.map writing) followsInline := by
  rw [writing_eq]
  rfl

theorem writing_inline [Surroundings] (node : DocNode) :
    node.writing.inline = Writing.inlineOf node (node.children.map writing) := by
  rw [writing_eq]
  rfl

end DocNode

namespace Doc

theorem toTree_nodes [Surroundings] (doc : Doc) :
    doc.toTree.nodes = ((Writing.blocks (doc.content.map DocNode.writing)).run .empty).1 := by
  unfold toTree
  rcases doc.frontmatter? with _ | ⟨data, _ | error, metadata⟩ <;> rfl

end Doc

end ComponentMarkdown
