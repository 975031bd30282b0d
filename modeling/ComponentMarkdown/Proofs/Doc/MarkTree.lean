import ComponentMarkdown.Platform
import ComponentMarkdown.Proofs.Doc.Editable
import ComponentMarkdown.Proofs.Doc.Line
import ComponentMarkdown.Proofs.Doc.MaximalRuns
import ComponentMarkdown.Proofs.Doc.Nesting

namespace ComponentMarkdown

/-- What a line is folded into. The nodes of the line are its leaves, whatever they are themselves, so the elements
that were made for marks are told apart from those that were there. -/
inductive MarkTree where
  | leaf (node : Node)
  | element (mark : Mark) (children : List MarkTree)

/-- The mark that can be read off the element of a mark: the one of its tag, with its attributes. -/
def Mark.shown [Surroundings] (mark : Mark) : Mark := ⟨mark.kind, mark.written⟩

namespace MarkTree

mutual

/-- The markup that a tree stands for. -/
def toNode [Surroundings] : MarkTree → Node
  | leaf node => node
  | element mark children => .element mark.shown.kind.tag mark.shown.attrs (toNodes children)

def toNodes [Surroundings] : List MarkTree → List Node
  | [] => []
  | tree :: rest => tree.toNode :: toNodes rest

end

mutual

/-- The leaves in document order, each with the marks of the elements around it, the innermost first; `outer` are
those of the elements around the tree. -/
def leaves (outer : List Mark) : MarkTree → List MarkedNode
  | leaf node => [⟨outer, node⟩]
  | element mark children => leavesOf (Mark.compose outer mark) children

def leavesOf (outer : List Mark) : List MarkTree → List MarkedNode
  | [] => []
  | tree :: rest => tree.leaves outer ++ leavesOf outer rest

end

/-- Every element has content, and no two elements in a row come from the same mark. -/
inductive IsMinimal : List MarkTree → Prop
  | nil : IsMinimal []
  | leaf (node : Node) {rest : List MarkTree} : IsMinimal rest → IsMinimal (leaf node :: rest)
  | element {mark : Mark} {children rest : List MarkTree} : children ≠ [] → IsMinimal children →
      (∀ other inner, rest.head? = some (element other inner) → mark.same other = false) → IsMinimal rest →
      IsMinimal (element mark children :: rest)

theorem toNodes_eq_map [Surroundings] (trees : List MarkTree) : toNodes trees = trees.map toNode := by
  induction trees with
  | nil => rfl
  | cons tree rest ih => rw [toNodes, ih, List.map_cons]

theorem leavesOf_eq_flatMap (outer : List Mark) (trees : List MarkTree) :
    leavesOf outer trees = trees.flatMap (leaves outer) := by
  induction trees with
  | nil => rfl
  | cons tree rest ih => rw [leavesOf, ih, List.flatMap_cons]

theorem toNodes_append [Surroundings] (trees more : List MarkTree) :
    toNodes (trees ++ more) = toNodes trees ++ toNodes more := by
  simp only [toNodes_eq_map, List.map_append]

theorem leavesOf_append (outer : List Mark) (trees more : List MarkTree) :
    leavesOf outer (trees ++ more) = leavesOf outer trees ++ leavesOf outer more := by
  simp only [leavesOf_eq_flatMap, List.flatMap_append]

theorem toNodes_map_leaf [Surroundings] (nodes : List Node) : toNodes (nodes.map leaf) = nodes := by
  induction nodes with
  | nil => rfl
  | cons node rest ih => rw [List.map_cons, toNodes, ih, toNode]

theorem leavesOf_map_leaf (outer : List Mark) (nodes : List Node) :
    leavesOf outer (nodes.map leaf) = nodes.map (MarkedNode.mk outer) := by
  induction nodes with
  | nil => rfl
  | cons node rest ih => rw [List.map_cons, leavesOf, ih, leaves, List.singleton_append, List.map_cons]

theorem IsMinimal.leaves_append {rest : List MarkTree} (minimal : IsMinimal rest) (nodes : List Node) :
    IsMinimal (nodes.map MarkTree.leaf ++ rest) := by
  induction nodes with
  | nil => exact minimal
  | cons node more ih => exact .leaf node ih

mutual

/-- Elements around a tree are around each of its leaves. -/
theorem leaves_eq_map (outer : List Mark) (tree : MarkTree) :
    tree.leaves outer = (tree.leaves []).map (MarkedNode.under outer) := by
  cases tree with
  | leaf node => rfl
  | element mark children =>
    rw [leaves, leaves, leavesOf_eq_map (Mark.compose outer mark),
      leavesOf_eq_map (Mark.compose [] mark), List.map_map, MarkedNode.under_comp_under]
    rfl

theorem leavesOf_eq_map (outer : List Mark) (trees : List MarkTree) :
    leavesOf outer trees = (leavesOf [] trees).map (MarkedNode.under outer) := by
  cases trees with
  | nil => rfl
  | cons tree rest => rw [leavesOf, leavesOf, leaves_eq_map outer tree, leavesOf_eq_map outer rest, List.map_append]

end

end MarkTree

namespace MarkedNode

/-- The same node with equal marks, whatever the order of their attributes. -/
def SameMarked (item other : MarkedNode) : Prop := Mark.sameList item.marks other.marks = true ∧
    item.node = other.node

/-- The node with its marks as the elements of these show them. -/
def shown [Surroundings] (item : MarkedNode) : MarkedNode := { item with marks := item.marks.map Mark.shown }

/-- A tree over the nodes of a line that stands for the markup `nodes`. -/
structure IsFolded [Surroundings] (items : List MarkedNode) (nodes : List Node) (trees : List MarkTree) : Prop where
  nodes : MarkTree.toNodes trees = nodes
  leaves : List.Forall₂ SameMarked (MarkTree.leavesOf [] trees) items
  wellFormed : ∀ leaf ∈ MarkTree.leavesOf [] trees, leaf.wellFormed = true
  minimal : MarkTree.IsMinimal trees

theorem SameMarked.shown [Surroundings] {item other : MarkedNode} (valid : item.wellFormed = true)
    (valid' : other.wellFormed = true) (same : SameMarked item other) : SameMarked item.shown other.shown := by
  obtain ⟨marks, node⟩ := item
  obtain ⟨marks', node'⟩ := other
  obtain ⟨pairs, rfl⟩ := same
  refine ⟨?_, rfl⟩
  rw [MarkedNode.wellFormed, List.all_eq_true] at valid valid'
  rw [Mark.sameList_iff] at pairs ⊢
  change List.Forall₂ _ (marks.map Mark.shown) (marks'.map Mark.shown)
  rw [List.forall₂_map_left_iff, List.forall₂_map_right_iff]
  dsimp only at pairs valid valid'
  induction pairs with
  | nil => exact .nil
  | cons first _ ih =>
    rw [List.forall_mem_cons] at valid valid'
    have kind := (Mark.same_iff.1 first).1
    exact .cons (Mark.same_iff.2 ⟨kind, Mark.written_same valid.1 valid'.1 first⟩) (ih valid.2 valid'.2)

theorem sameMarked_map_shown [Surroundings] {leaves items : List MarkedNode}
    (valid : ∀ leaf ∈ leaves, leaf.wellFormed = true)
    (valid' : ∀ item ∈ items, item.wellFormed = true) (same : List.Forall₂ SameMarked leaves items) :
    List.Forall₂ SameMarked (leaves.map MarkedNode.shown) (items.map MarkedNode.shown) := by
  induction same with
  | nil => exact .nil
  | cons first _ ih =>
    rw [List.forall_mem_cons] at valid valid'
    exact .cons (first.shown valid.1 valid'.1) (ih valid.2 valid'.2)

/-- A mark around a node is its outermost one. -/
theorem sameMarked_under {mark : Mark} {leaf item : MarkedNode} (same : SameMarked leaf item.dropOuter)
    (outer : Mark.sameOption (some mark) item.marks.getLast? = true) : SameMarked (under [mark] leaf) item := by
  obtain ⟨marks, node⟩ := same
  refine ⟨?_, node⟩
  cases last : item.marks.getLast? with
  | none =>
    rw [last] at outer
    cases outer
  | some own =>
    rw [last] at outer
    have whole : item.marks = item.marks.dropLast ++ [own] := (List.dropLast_append_getLast? own last).symm
    rw [Mark.sameList_iff] at marks ⊢
    rw [whole]
    exact List.rel_append marks (.cons outer .nil)

theorem sameMarked_map_under {mark : Mark} {leaves items : List MarkedNode}
    (same : List.Forall₂ SameMarked leaves (items.map dropOuter))
    (outer : ∀ item ∈ items, Mark.sameOption (some mark) item.marks.getLast? = true) :
    List.Forall₂ SameMarked (leaves.map (under [mark])) items := by
  induction items generalizing leaves with
  | nil =>
    rw [List.forall₂_nil_right_iff.1 same]
    exact .nil
  | cons item rest ih =>
    obtain ⟨here, below⟩ := List.forall_mem_cons.1 outer
    obtain ⟨leaf, more, first, later, rfl⟩ := List.forall₂_cons_right_iff.1 same
    exact .cons (sameMarked_under first here) (ih later below)

theorem under_wellFormed {mark : Mark} {leaf : MarkedNode} (valid : mark.wellFormed = true)
    (inside : leaf.wellFormed = true) : (under [mark] leaf).wellFormed = true := by
  rw [wellFormed] at inside ⊢
  rw [under, List.all_append, inside]
  simpa using valid

section Folded

variable {items rest : List MarkedNode} {nodes inner : List Node} {trees content : List MarkTree}

theorem IsFolded.nil [Surroundings] : IsFolded [] [] [] := ⟨rfl, .nil, by simp [MarkTree.leavesOf], .nil⟩

/-- Nodes without marks stay what they are. -/
theorem IsFolded.append_leaves [Surroundings] (unmarked : ∀ item ∈ items, item.marks = [])
    (folded : IsFolded rest nodes trees) :
    IsFolded (items ++ rest) (items.map node ++ nodes) ((items.map node).map .leaf ++ trees) := by
  refine ⟨?_, ?_, ?_, folded.minimal.leaves_append _⟩
  · rw [MarkTree.toNodes_append, MarkTree.toNodes_map_leaf, folded.nodes]
  · rw [MarkTree.leavesOf_append, MarkTree.leavesOf_map_leaf, List.map_map]
    have bare : List.Forall₂ SameMarked (items.map (MarkedNode.mk [] ∘ node)) items := by
      refine List.forall₂_map_left_iff.2 (List.forall₂_same.2 fun item member => ⟨?_, rfl⟩)
      rw [unmarked item member]
      rfl
    exact List.rel_append bare folded.leaves
  · rw [MarkTree.leavesOf_append, MarkTree.leavesOf_map_leaf]
    refine List.forall_mem_append.2 ⟨fun leaf member => ?_, folded.wellFormed⟩
    obtain ⟨node, -, rfl⟩ := List.mem_map.1 member
    rfl

/-- Nodes with the same outermost mark are folded into its element. -/
theorem IsFolded.cons_element [Surroundings] {mark : Mark} (valid : mark.wellFormed = true) (nonempty : items ≠ [])
    (outer : ∀ item ∈ items, Mark.sameOption (some mark) item.marks.getLast? = true)
    (inside : IsFolded (items.map dropOuter) inner content)
    (apart : ∀ other children, trees.head? = some (.element other children) → mark.same other = false)
    (folded : IsFolded rest nodes trees) :
    IsFolded (items ++ rest) (markElement mark inner :: nodes) (.element mark content :: trees) := by
  refine ⟨?_, ?_, ?_, .element ?_ inside.minimal apart folded.minimal⟩
  · rw [MarkTree.toNodes, MarkTree.toNode, inside.nodes, folded.nodes]
    rfl
  · rw [MarkTree.leavesOf, MarkTree.leaves, MarkTree.leavesOf_eq_map]
    exact List.rel_append (sameMarked_map_under inside.leaves outer) folded.leaves
  · rw [MarkTree.leavesOf, MarkTree.leaves, MarkTree.leavesOf_eq_map]
    refine List.forall_mem_append.2 ⟨fun leaf member => ?_, folded.wellFormed⟩
    obtain ⟨below, within, rfl⟩ := List.mem_map.1 member
    exact under_wellFormed valid (inside.wellFormed below within)
  · rintro rfl
    have leaves := inside.leaves
    rw [MarkTree.leavesOf, List.forall₂_nil_left_iff, List.map_eq_nil_iff] at leaves
    exact nonempty leaves

end Folded

/-- The trees of runs stand one after the other. The first is the element of the mark of the first run, so elements
of one mark are not beside each other if the runs are of different marks. -/
theorem exists_isFolded_of_runs [Surroundings] {runs : List (Run (Option Mark) MarkedNode)}
    (keyed : ∀ run ∈ runs, run.items ≠ [] ∧ ∀ item ∈ run.items, Mark.sameOption run.key item.marks.getLast? = true)
    (inner : ∀ run ∈ runs, ∀ mark, run.key = some mark → mark.wellFormed = true ∧
      ∃ trees, IsFolded (run.items.map dropOuter) (nest (run.items.map dropOuter)) trees)
    (apart : runs.IsChain fun run next => Mark.sameOption run.key next.key = false) :
    ∃ trees, IsFolded (Run.flatten runs) (runs.flatMap (wrapped nest)) trees ∧
      ∀ mark children, trees.head? = some (.element mark children) → ∃ run ∈ runs.head?, run.key = some mark := by
  induction runs with
  | nil => exact ⟨[], .nil, by simp⟩
  | cons run rest ih =>
    obtain ⟨⟨nonempty, here⟩, below⟩ := List.forall_mem_cons.1 keyed
    obtain ⟨first, later⟩ := List.forall_mem_cons.1 inner
    obtain ⟨trees, folded, front⟩ := ih below later apart.tail
    have whole : Run.flatten (run :: rest) = run.items ++ Run.flatten rest := List.flatMap_cons
    rw [whole, List.flatMap_cons, wrapped]
    cases key : run.key with
    | none =>
      rw [key] at here
      refine ⟨_, folded.append_leaves fun item member => marks_eq_nil_of_unmarked (here item member), ?_⟩
      intro mark children head
      obtain ⟨item, more, start⟩ := List.exists_cons_of_ne_nil nonempty
      rw [start] at head
      cases head
    | some mark =>
      rw [key] at here
      obtain ⟨valid, content, inside⟩ := first mark key
      refine ⟨_, inside.cons_element valid nonempty here (fun other children head => ?_) folded, ?_⟩
      · obtain ⟨next, member, keyOf⟩ := front other children head
        cases rest with
        | nil => cases member
        | cons run' more =>
          obtain rfl : run' = next := Option.some.inj member
          have differ := (List.isChain_cons_cons.1 apart).1
          rwa [key, keyOf] at differ
      · intro other children head
        cases head
        exact ⟨run, rfl, key⟩

/-- Folding a line gives a tree over its nodes, each inside its marks, with as few elements as there can be. -/
theorem exists_isFolded [Surroundings] {items : List MarkedNode} (valid : ∀ item ∈ items, item.wellFormed = true) :
    ∃ trees, IsFolded items (nest items) trees := by
  induction items using nest_induction with
  | step items ih =>
    have cut : Run.IsMaximalCut Mark.sameOption _ _ items (Run.byOuterMark marks items) :=
      Run.isMaximalCut_ofList Run.isEquality_sameOption fun item member => wellFormed_of_outer (valid item member)
    -- What stands inside an element has one mark less, so the trees inside are there by induction.
    have inner : ∀ run ∈ Run.byOuterMark marks items, ∀ mark, run.key = some mark → mark.wellFormed = true ∧
        ∃ trees, IsFolded (run.items.map dropOuter) (nest (run.items.map dropOuter)) trees := by
      intro run listed mark key
      refine ⟨cut.valid run listed mark key, ih run listed mark key fun item member => ?_⟩
      obtain ⟨whole, inside, rfl⟩ := List.mem_map.1 member
      exact dropOuter_wellFormed (valid whole (Run.mem_of_mem listed inside))
    obtain ⟨trees, folded, -⟩ :=
      exists_isFolded_of_runs (fun run listed => ⟨cut.nonempty run listed, cut.keyed run listed⟩) inner cut.apart
    rw [cut.whole, ← nest_eq] at folded
    exact ⟨trees, folded⟩

/-- What a group of nodes in a row is joined to: a single node, or texts with equal marks put together. -/
structure IsJoined (group : List MarkedNode) (item : MarkedNode) : Prop where
  nonempty : group ≠ []
  marks : ∀ x ∈ group, Mark.sameList item.marks x.marks = true
  node : group.map node = [item.node] ∨
    ∃ texts : List String, group.map node = texts.map Node.text ∧ item.node = .text (String.join texts)

/-- Two nodes are texts with equal marks. -/
def AreJoinable (x y : MarkedNode) : Prop :=
  x.node.isText = true ∧ y.node.isText = true ∧ Mark.sameList x.marks y.marks = true

theorem not_areJoinable_iff {x y : MarkedNode} : ¬ AreJoinable x y ↔ coalesced? x y = none := by
  obtain ⟨marks, node⟩ := x
  obtain ⟨marks', node'⟩ := y
  cases node <;> cases node' <;> simp [AreJoinable, coalesced?, Node.isText]

theorem IsJoined.single {item : MarkedNode} (valid : item.wellFormed = true) : IsJoined [item] item := by
  refine ⟨by simp, ?_, Or.inl rfl⟩
  rw [List.forall_mem_singleton]
  exact Mark.sameList_refl (List.all_eq_true.1 valid)

theorem IsJoined.cons {x y z : MarkedNode} {group : List MarkedNode} (valid : x.wellFormed = true)
    (merged : coalesced? x y = some z) (joined : IsJoined group y) : IsJoined (x :: group) z := by
  obtain ⟨marks, content, marks', next, rfl, rfl, same, rfl⟩ := coalesced?_eq_some merged
  refine ⟨by simp, ?_, Or.inr ?_⟩
  · refine List.forall_mem_cons.2 ⟨Mark.sameList_refl (List.all_eq_true.1 valid), fun item member => ?_⟩
    exact Mark.sameList_trans same (joined.marks item member)
  · rcases joined.node with single | ⟨texts, whole, text⟩
    · exact ⟨[content, next], by rw [List.map_cons, single]; rfl, by simp [String.join_cons]⟩
    · refine ⟨content :: texts, by rw [List.map_cons, whole, List.map_cons], ?_⟩
      rw [String.join_cons, Node.text.inj text]

theorem exists_groups {items : List MarkedNode} (valid : ∀ item ∈ items, item.wellFormed = true) :
    ∃ groups : List (List MarkedNode), groups.flatten = items ∧ List.Forall₂ IsJoined groups (coalesce items) := by
  rw [coalesce_eq]
  induction items with
  | nil => exact ⟨[], rfl, .nil⟩
  | cons x rest ih =>
    obtain ⟨here, below⟩ := List.forall_mem_cons.1 valid
    obtain ⟨groups, rfl, joined⟩ := ih below
    rw [mergeNeighbours_cons]
    cases split : mergeNeighbours coalesced? groups.flatten with
    | nil =>
      rw [split] at joined
      rw [List.forall₂_nil_right_iff.1 joined]
      exact ⟨[[x]], rfl, .cons (.single here) .nil⟩
    | cons y tail =>
      rw [split] at joined
      obtain ⟨group, more, first, later, rfl⟩ := List.forall₂_cons_right_iff.1 joined
      cases rule : coalesced? x y with
      | none =>
        rw [consMerging_of_none rule]
        exact ⟨[x] :: group :: more, rfl, .cons (.single here) joined⟩
      | some z =>
        rw [consMerging_of_some rule]
        exact ⟨(x :: group) :: more, rfl, .cons (first.cons here rule) later⟩

/-- What joining texts makes of a line: its nodes, group by group, and no two neighbours are left that could be
joined. -/
structure IsCoalesced (items out : List MarkedNode) : Prop where
  groups : ∃ groups : List (List MarkedNode), groups.flatten = items ∧ List.Forall₂ IsJoined groups out
  apart : out.IsChain fun x y => ¬ AreJoinable x y

theorem coalesce_wellFormed {items : List MarkedNode} (valid : ∀ item ∈ items, item.wellFormed = true) :
    ∀ item ∈ coalesce items, item.wellFormed = true := by
  rw [coalesce_eq]
  exact forall_mergeNeighbours coalesced?_inAnyOrder.closed valid

theorem isCoalesced_coalesce {items : List MarkedNode} (valid : ∀ item ∈ items, item.wellFormed = true) :
    IsCoalesced items (coalesce items) := by
  refine ⟨exists_groups valid, ?_⟩
  have law := coalesced?_inAnyOrder
  have chain := isChain_mergeNeighbours law.closed (fun _ _ _ _ => law.apart) valid
  rw [coalesce_eq]
  exact chain.imp fun x y => not_areJoinable_iff.2

/-- Folding the marks of a line is a recursion that ends. What it makes is a tree over the joined line: its leaves
are the nodes in their order, each inside the elements of its marks, and neighbouring elements are of different
marks. -/
theorem nest_coalesce_tree [Surroundings] {items : List MarkedNode}
    (valid : ∀ item ∈ items, item.wellFormed = true) :
    (∀ line, nest line = (Run.byOuterMark marks line).flatMap (wrapped nest) ∧
      ∀ run ∈ Run.byOuterMark marks line, ∀ mark, run.key = some mark →
        depth (run.items.map dropOuter) < depth line) ∧
    IsCoalesced items (coalesce items) ∧
    ∃ trees, MarkTree.toNodes trees = nest (coalesce items) ∧
      List.Forall₂ SameMarked (MarkTree.leavesOf [] trees) (coalesce items) ∧
      List.Forall₂ SameMarked ((MarkTree.leavesOf [] trees).map shown) ((coalesce items).map shown) ∧
      MarkTree.IsMinimal trees := by
  refine ⟨fun line => ⟨nest_eq line, fun run cut mark => depth_dropOuter cut⟩, isCoalesced_coalesce valid, ?_⟩
  have valid' := coalesce_wellFormed valid
  obtain ⟨trees, folded⟩ := exists_isFolded valid'
  have shown := sameMarked_map_shown folded.wellFormed valid' folded.leaves
  exact ⟨trees, folded.nodes, folded.leaves, shown, folded.minimal⟩

/-- A text half in italics inside a link whose attributes come in two orders: one link, and italics inside it. -/
theorem nest_coalesce_tree_link :
    letI : Surroundings := .platform
    let link : Mark := ⟨.link, [("href", .str "/a"), ("title", .str "b")]⟩
    let turned : Mark := ⟨.link, [("title", .str "b"), ("href", .str "/a")]⟩
    let items : List MarkedNode :=
    [⟨[link], .text "on"⟩, ⟨[turned], .text "e "⟩, ⟨[⟨.italic, []⟩, link], .text "two"⟩]
    (∀ item ∈ items, item.wellFormed = true) ∧
      ∃ trees, MarkTree.toNodes trees = [.element "a" link.attrs [.text "one ", .element "em" [] [.text "two"]]] ∧
        MarkTree.IsMinimal trees := by
  intro link turned items
  have valid : ∀ item ∈ items, item.wellFormed = true := by decide
  obtain ⟨-, -, trees, nodes, -, -, minimal⟩ := @nest_coalesce_tree .platform _ valid
  exact ⟨valid, trees, nodes, minimal⟩

end MarkedNode

end ComponentMarkdown
