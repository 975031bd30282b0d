import ComponentMarkdown.Doc.Node

namespace ComponentMarkdown

namespace DocNode

theorem sizeOf_child_lt {node child : DocNode} (member : child ∈ node.children) :
    sizeOf child < sizeOf node := by
  cases node <;> simp only [children, List.not_mem_nil] at member
  all_goals
    have smaller := List.sizeOf_lt_of_mem member
    simp
    omega

/-- What holds of a node as soon as it holds of its children holds of every node. -/
theorem induction {P : DocNode → Prop} (step : ∀ node, (∀ child ∈ node.children, P child) → P node)
    (node : DocNode) : P node := by
  induction size : sizeOf node using Nat.strongRecOn generalizing node with
  | ind n ih =>
    refine step node fun child member => ih (sizeOf child) ?_ child rfl
    rw [← size]
    exact sizeOf_child_lt member

/-- Whether a node and everything in it have a property. -/
def everywhere (property : DocNode → Bool) (node : DocNode) : Bool :=
  node.fold fun node below => property node && below.all id

theorem everywhere_iff {property : DocNode → Bool} {node : DocNode} :
    node.everywhere property = true ↔
      property node = true ∧ ∀ child ∈ node.children, child.everywhere property = true := by
  unfold everywhere
  rw [fold_eq]
  simp only [Bool.and_eq_true, List.all_eq_true, List.mem_map, id_eq, forall_exists_index, and_imp,
    forall_apply_eq_imp_iff₂]

theorem everywhere_mono {property other : DocNode → Bool}
    (weaker : ∀ node, property node = true → other node = true)
    {node : DocNode} (holds : node.everywhere property = true) : node.everywhere other = true := by
  induction node using induction with
  | step node ih =>
    obtain ⟨here, below⟩ := everywhere_iff.1 holds
    exact everywhere_iff.2 ⟨weaker node here, fun child member => ih child member (below child member)⟩

end DocNode

namespace Doc

/-- Whether all nodes of a document, at any depth, have a property. -/
def everywhere (property : DocNode → Bool) (doc : Doc) : Bool :=
  doc.content.all (DocNode.everywhere property)

theorem everywhere_iff {property : DocNode → Bool} {doc : Doc} :
    doc.everywhere property = true ↔ ∀ node ∈ doc.content, node.everywhere property = true := by
  simp only [everywhere, List.all_eq_true]

end Doc

end ComponentMarkdown
