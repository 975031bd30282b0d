import ComponentMarkdown.Proofs.Doc.Anchors
import ComponentMarkdown.Proofs.Doc.LineRoundTrip
import ComponentMarkdown.Proofs.Markup.Placement

namespace ComponentMarkdown

namespace Writing

theorem line_nil [Surroundings] : line [] = pure [] := rfl

theorem blocksFrom_nil [Surroundings] (done : List Node) : blocksFrom done [] [] = pure done := by
  rw [blocksFrom, line_nil, pure_bind, List.append_nil]

theorem blocksFrom_cons [Surroundings] {doc : DocNode} (outside : doc.isInline = false) (done : List Node)
    (rest : List Writing) : blocksFrom done [] (doc.writing :: rest) =
      doc.writing.block (endsInline done) >>= fun nodes => blocksFrom (done ++ nodes) [] rest := by
  rw [blocksFrom, DocNode.writing_node, outside, line_nil]
  simp only [Bool.false_eq_true, if_false, pure_bind, List.append_nil]

end Writing

/-- A node of the document that is written as one node of markup: the given one with new anchors. A video
is only written on its own where it does not follow a line. -/
def Restores [Surroundings] (doc : DocNode) (node : Node) : Prop :=
  doc.isInline = false ∧ ∀ followsInline, (followsInline = true → node.tag? ≠ some "video") →
    Slugged.Agrees (fun nodes anchored => ∃ item, nodes = [item] ∧ item.Alike anchored ∧
      item.fixedPlacement? = node.fixedPlacement?) (doc.writing.block followsInline) node.anchored

/-- Blocks in a row are written one after the other. -/
theorem Restores.blocksFrom [Surroundings] {docs : List DocNode} {nodes : List Node}
    (restores : List.Forall₂ Restores docs nodes)
    (noVideo : ∀ node ∈ nodes, node.tag? ≠ some "video") {α : Type} {R : List Node → α → Prop} {more : List Writing}
    {next : List Node → Slugged α} (done : List Node)
    (later : ∀ written anchored, List.Forall₂ Node.Alike written anchored →
      Slugged.Agrees R (Writing.blocksFrom (done ++ written) [] more) (next anchored)) :
    Slugged.Agrees R (Writing.blocksFrom done [] (docs.map DocNode.writing ++ more))
      (Node.anchorAll nodes >>= next) := by
  induction restores generalizing done next with
  | nil =>
    rw [Node.anchorAll, pure_bind]
    have here := later [] [] .nil
    rwa [List.append_nil] at here
  | @cons doc node docs nodes first _ ih =>
    obtain ⟨plain, others⟩ := List.forall_mem_cons.1 noVideo
    obtain ⟨outside, written⟩ := first
    rw [List.map_cons, List.cons_append, Writing.blocksFrom_cons outside, Node.anchorAll]
    simp only [bind_assoc, pure_bind]
    refine (written _ fun _ => plain).bind fun items anchored one => ?_
    obtain ⟨item, rfl, alike, _⟩ := one
    refine ih others (done ++ [item]) fun rest anchoredRest alikeRest => ?_
    have whole := later (item :: rest) (anchored :: anchoredRest) (.cons alike alikeRest)
    rwa [List.append_assoc]

/-- Whatever slugs were issued before, a node is read as one block, which restores it. -/
def Node.BlockRestores [Surroundings] (emoji : Bool) (node : Node) : Prop :=
  Slugged.Gives (fun block => ∃ doc, block = some doc ∧ Restores doc node) (node.reading emoji).block

namespace Node

variable {emoji : Bool}

/-- A line among blocks is read as a synthetic paragraph, which is written as the line, unless it stands
behind something inline. -/
theorem paragraph_restores [Surroundings] (emoji : Bool) {run : List Node}
    (canonical : isCanonicalBareLine run = true) :
    ∃ docs content, Reading.paragraph (run.map (reading emoji)) = pure docs ∧
      (∀ doc ∈ docs, doc.isInline = false) ∧ List.Forall₂ Alike content run ∧
      ∀ done, Writing.endsInline done = false → ∀ more : List Writing,
        Writing.blocksFrom done [] (docs.map DocNode.writing ++ more) =
          Writing.blocksFrom (done ++ content) [] more := by
  rw [isCanonicalBareLine, Bool.or_eq_true, List.isEmpty_iff, Bool.and_eq_true, Bool.not_eq_true'] at canonical
  rcases canonical with rfl | ⟨line, notBlank⟩
  · refine ⟨[], [], rfl, by simp, .nil, fun done _ more => ?_⟩
    rw [List.append_nil]
    rfl
  · obtain ⟨docs, content, read, written, alike⟩ := lineRestores emoji line
    have nodes : (run.map (reading emoji)).all (fun item => Reading.isBlankText item.node) = false := by
      rw [List.all_map, ← notBlank]
      exact congrArg run.all (funext fun node => by rw [Function.comp_apply, reading_node])
    refine ⟨[.paragraph true docs], content, ?_, by simp [DocNode.isInline], alike, fun done last more => ?_⟩
    · rw [Reading.paragraph, nodes, read]
      rfl
    · rw [List.map_singleton, List.singleton_append, Writing.blocksFrom_cons rfl, last, DocNode.writing_block]
      simp only [Writing.blockOf, DocNode.children, written, pure_bind]
      rfl

theorem head?_map_reading [Surroundings] (nodes : List Node) :
    (nodes.map (reading emoji)).head?.map Reading.node = nodes.head? := by
  cases nodes with
  | nil => rfl
  | cons node rest => rw [List.map_cons, List.head?_cons, Option.map_some, reading_node, List.head?_cons]

theorem line_of_bareLine [Surroundings] {run : List Node} (canonical : isCanonicalBareLine run = true) :
    anchorAll run = pure run := by
  rw [isCanonicalBareLine, Bool.or_eq_true, List.isEmpty_iff, Bool.and_eq_true] at canonical
  rcases canonical with rfl | ⟨line, _⟩
  · rw [anchorAll]
  · exact anchorAll_of_line line

/-- A line in front of a block is anchored as it is. -/
theorem anchorAll_line_cons [Surroundings] {run : List Node} (bare : isCanonicalBareLine run = true) (node : Node)
    (anchored rest : List Node) :
    (do return anchored ++ (← anchorAll (run ++ node :: rest)) : Slugged (List Node)) =
      node.anchored >>= fun first => do return anchored ++ run ++ [first] ++ (← anchorAll rest) := by
  simp only [anchorAll_append, line_of_bareLine bare, anchorAll, bind_assoc, pure_bind, List.append_assoc,
    List.singleton_append]

/-- What is written ends in a block if its last node has the place of a block. -/
theorem endsInline_behind {done content run : List Node} {before after : Option Node} {node item : Node}
    (alike : List.Forall₂ Alike content run) (place : neighbourPlace before = neighbourPlace (done ++ run).getLast?)
    (samePlace : item.fixedPlacement? = node.fixedPlacement?) (block : isInlineBetween before node after = false) :
    Writing.endsInline (done ++ content ++ [item]) = false := by
  have sameBefore : neighbourPlace (done ++ content).getLast? = neighbourPlace before := by
    rw [place, neighbourPlace_getLast?_append alike]
  rw [endsInline_concat, isInlineBetween_congr sameBefore samePlace]
  exact isInlineBetween_none_of_false block

/-- The blocks of a sibling list are written as they were, behind what is already written. The invariant is
that what is written ends in a block, and that the last of it has the same place as the node in front. -/
theorem blocksFrom_restores [Surroundings] {nodes : List Node}
    (each : ∀ node ∈ nodes, isCanonicalBlock node = true → node.BlockRestores emoji) {run : List Node}
    {before : Option Node} (canonical : areCanonicalBlocks run before nodes = true) :
    Slugged.Gives (fun docs => (∀ doc ∈ docs, doc.isInline = false) ∧
      ∀ done anchored, List.Forall₂ Alike done anchored → Writing.endsInline done = false →
        neighbourPlace before = neighbourPlace (done ++ run).getLast? →
        Slugged.Agrees (List.Forall₂ Alike) (Writing.blocksFrom done [] (docs.map DocNode.writing))
          (do return anchored ++ (← anchorAll (run ++ nodes))))
      (Reading.blocksFrom (run.map (reading emoji)) before (nodes.map (reading emoji))) := by
  induction nodes generalizing run before with
  | nil =>
    rw [areCanonicalBlocks] at canonical
    obtain ⟨docs, content, read, outside, alike, written⟩ := paragraph_restores emoji canonical
    rw [List.map_nil, Reading.blocksFrom, read]
    refine .pure ⟨outside, fun done anchored prefixes last _ => ?_⟩
    have whole := written done last []
    rw [List.append_nil] at whole
    rw [whole, Writing.blocksFrom_nil, List.append_nil, line_of_bareLine canonical, pure_bind]
    exact .pure (List.rel_append prefixes alike)
  | cons node rest ih =>
    obtain ⟨here, others⟩ := List.forall_mem_cons.1 each
    rw [areCanonicalBlocks] at canonical
    rw [List.map_cons, Reading.blocksFrom, reading_node, head?_map_reading]
    split at canonical
    · -- the node belongs to the line that is still open
      rename_i inline
      rw [if_pos inline]
      have later := ih others canonical
      rw [List.map_append, List.map_singleton] at later
      refine later.weaken fun docs both => ⟨both.1, fun done anchored prefixes last _ => ?_⟩
      have whole := both.2 done anchored prefixes last (by rw [← List.append_assoc, List.getLast?_concat])
      rwa [List.append_assoc] at whole
    · -- the line is closed, and the node stands behind it as a block
      rename_i block
      rw [if_neg block]
      rw [Bool.not_eq_true] at block
      simp only [Bool.and_eq_true] at canonical
      obtain ⟨⟨⟨bare, isBlock⟩, alone⟩, below⟩ := canonical
      obtain ⟨docs, content, read, outside, alike, written⟩ := paragraph_restores emoji bare
      rw [read, pure_bind]
      refine (here isBlock).bind fun found single => ?_
      obtain ⟨doc, rfl, outsideDoc, restores⟩ := single
      refine (ih others below).bind fun tail later => .pure ⟨?_, fun done anchored prefixes last place => ?_⟩
      · rw [Option.toList_some, List.forall_mem_append, List.forall_mem_append, List.forall_mem_singleton]
        exact ⟨⟨outside, outsideDoc⟩, later.1⟩
      · rw [anchorAll_line_cons bare, Option.toList_some, List.append_assoc, List.map_append,
          List.map_append, List.map_singleton,
          List.singleton_append, written done last, Writing.blocksFrom_cons outsideDoc]
        have follows : Writing.endsInline (done ++ content) = true → node.tag? ≠ some "video" := by
          intro behind
          rw [Bool.or_eq_true, List.isEmpty_iff, decide_eq_true_eq] at alone
          refine alone.resolve_left fun empty => ?_
          subst empty
          rw [List.forall₂_nil_right_iff.1 alike, List.append_nil, last] at behind
          cases behind
        refine (restores _ follows).bind fun items first one => ?_
        obtain ⟨item, rfl, alikeItem, samePlace⟩ := one
        have ends := endsInline_behind alike place samePlace block
        have places : neighbourPlace (some node) = neighbourPlace (done ++ content ++ [item] ++ []).getLast? := by
          rw [List.append_nil, List.getLast?_concat]
          exact samePlace.symm
        exact later.2 (done ++ content ++ [item]) (anchored ++ run ++ [first])
          (List.rel_append (List.rel_append prefixes alike) (.cons alikeItem .nil)) ends places

/-- Reading the blocks of a sibling list gives nodes that are written as the blocks. -/
def BlocksRestore [Surroundings] (emoji : Bool) (nodes : List Node) : Prop :=
  Slugged.Gives (fun docs => (∀ doc ∈ docs, doc.isInline = false) ∧
    Slugged.Agrees (List.Forall₂ Alike) (Writing.blocks (docs.map DocNode.writing)) (anchorAll nodes))
    (Reading.blocks (nodes.map (reading emoji)))

theorem blocksRestore_of_forall [Surroundings] {nodes : List Node}
    (each : ∀ node ∈ nodes, isCanonicalBlock node = true → node.BlockRestores emoji)
    (canonical : areCanonicalBlocks [] none nodes = true) : BlocksRestore emoji nodes := by
  refine (blocksFrom_restores each canonical).weaken fun docs both => ⟨both.1, ?_⟩
  have whole := both.2 [] [] .nil rfl rfl
  simpa only [Writing.blocks, List.nil_append, bind_pure] using whole

/-- Each node is read as one block, which restores it. -/
theorem eachBlock_restores [Surroundings] {nodes : List Node} (each : ∀ node ∈ nodes, node.BlockRestores emoji) :
    Slugged.Gives (fun docs => List.Forall₂ Restores docs nodes)
      (Reading.eachBlock (nodes.map (reading emoji))) := by
  induction nodes with
  | nil => exact .pure .nil
  | cons node rest ih =>
    obtain ⟨here, others⟩ := List.forall_mem_cons.1 each
    rw [List.map_cons, Reading.eachBlock]
    refine here.bind fun found single => (ih others).bind fun tail later => .pure ?_
    obtain ⟨doc, rfl, restores⟩ := single
    exact .cons restores later

section Kinds

variable {tag : String} {attrs : Attrs} {children : List Node}

theorem block_element [Surroundings] (emoji : Bool) : ((element tag attrs children).reading emoji).block =
    Reading.blockElement tag attrs (children.map (reading emoji)) := by
  rw [reading_element, Reading.ofElement]

/-- An element that is written with its own tag. -/
theorem restores_element [Surroundings] {doc : DocNode} {attrs' : Attrs} (content : Slugged (List Node))
    (outside : doc.isInline = false) (plain : ∀ level, TagKind.ofTag tag ≠ .heading level)
    (perm : attrs'.Perm attrs)
    (written : ∀ followsInline, doc.writing.block followsInline = do return [element tag attrs' (← content)])
    (agrees : Slugged.Agrees (List.Forall₂ Alike) content (anchorAll children)) :
    Restores doc (element tag attrs children) := by
  refine ⟨outside, fun followsInline _ => ?_⟩
  rw [written, anchored_element plain]
  exact agrees.bind fun content anchored alike => .pure ⟨_, rfl, .element perm alike, rfl⟩

theorem line_agrees [Surroundings] {docs : List DocNode} {content : List Node}
    (line : isCanonicalLine children = true)
    (written : Writing.line (docs.map DocNode.writing) = pure content)
    (alike : List.Forall₂ Alike content children) :
    Slugged.Agrees (List.Forall₂ Alike) (Writing.line (docs.map DocNode.writing)) (anchorAll children) := by
  rw [written, anchorAll_of_line line]
  exact .pure alike

theorem paragraph_block [Surroundings] (meaning : TagKind.ofTag tag = .paragraph)
    (line : isCanonicalLine children = true) : (element tag [] children).BlockRestores emoji := by
  obtain ⟨docs, content, read, written, alike⟩ := lineRestores emoji line
  obtain rfl : tag = "p" := TagKind.tag_eq meaning rfl (by decide)
  rw [BlockRestores, block_element]
  simp only [Reading.blockElement, meaning, read, pure_bind]
  refine .pure ⟨_, rfl, restores_element (Writing.line (docs.map DocNode.writing)) rfl (by rw [meaning]; simp)
    (.refl []) (fun followsInline => ?_) (line_agrees line written alike)⟩
  rw [DocNode.writing_block]
  rfl

theorem heading_block [Surroundings] {level : Nat} (meaning : TagKind.ofTag tag = .heading level)
    (line : isCanonicalLine children = true) : (element tag attrs children).BlockRestores emoji := by
  obtain ⟨docs, content, read, written, alike⟩ := lineRestores emoji line
  obtain rfl := TagKind.heading_tag meaning
  rw [BlockRestores, block_element]
  simp only [Reading.blockElement, meaning, read, pure_bind]
  refine (Slugged.Gives.any _).bind fun id _ => .pure ⟨_, rfl, rfl, fun followsInline _ => ?_⟩
  rw [DocNode.writing_block, anchored_heading meaning, anchorAll_of_line line]
  simp only [Writing.blockOf, DocNode.children, written, pure_bind, textOf_alike alike]
  refine (Slugged.Agrees.refl _).bind fun anchor anchor' same => ?_
  subst same
  exact .pure ⟨_, rfl, .element (.refl _) alike, rfl⟩

theorem horizontalRule_block [Surroundings] (meaning : TagKind.ofTag tag = .horizontalRule) :
    (element tag [] []).BlockRestores emoji := by
  obtain rfl : tag = "hr" := TagKind.tag_eq meaning rfl (by decide)
  rw [BlockRestores, block_element]
  refine .pure ⟨.horizontalRule, rfl, restores_element (pure []) rfl (by rw [meaning]; simp) (.refl [])
    (fun followsInline => ?_) ?_⟩
  · rw [DocNode.writing_block]
    rfl
  · rw [anchorAll]
    exact .pure .nil

theorem html_block [Surroundings] (meaning : TagKind.ofTag tag = .html) (content : String) :
    (element tag attrs [.text content]).BlockRestores emoji := by
  have text : Node.textOf [.text content] = content := by
    rw [textOf_cons, textOf_nil, textContent_text, String.append_empty]
  rw [BlockRestores, block_element]
  simp only [Reading.blockElement, meaning, map_node_map_reading, text]
  refine .pure ⟨.element tag attrs [.text content []], rfl, restores_element (pure [.text content]) rfl
    (by rw [meaning]; simp) (.refl _) (fun followsInline => ?_) ?_⟩
  · rw [DocNode.writing_block]
    rfl
  · rw [anchorAll_of_forall (by simp [anchored_text])]
    exact .pure (.cons (Alike.refl _) .nil)

/-- A video on its own is read as a synthetic paragraph. -/
theorem video_block [Surroundings] (meaning : TagKind.ofTag tag = .video)
    (line : isCanonicalLine [element tag attrs children] = true) :
    (element tag attrs children).BlockRestores emoji := by
  obtain ⟨docs, content, read, written, alike⟩ := lineRestores emoji line
  rw [isCanonicalLine, Bool.and_eq_true] at line
  have anchored := anchored_of_inline _ (areCanonicalInline_cons.1 line.1).1
  obtain rfl : tag = "video" := TagKind.tag_eq meaning rfl (by decide)
  have block : ((element "video" attrs children).reading emoji).block =
      (do return some (.paragraph true (← Reading.line [(element "video" attrs children).reading emoji]))) := by
    simp only [block_element, Reading.blockElement, meaning, Reading.line, Reading.inlines,
      inline_element (by decide : Reading.isBlockTag "video" = false), bind_assoc, pure_bind, List.append_nil]
  rw [List.map_singleton] at read
  rw [BlockRestores, block, read, pure_bind]
  refine .pure ⟨_, rfl, rfl, fun followsInline alone => ?_⟩
  have behind : followsInline = false := by
    cases followsInline with
    | false => rfl
    | true => exact absurd rfl (alone rfl)
  rw [behind, DocNode.writing_block, anchored]
  simp only [Writing.blockOf, DocNode.children, written, pure_bind]
  cases alike with
  | cons first none =>
    cases none
    exact .pure ⟨_, rfl, first, fixedPlacement?_alike first⟩

/-- An element around blocks, given how its content is read. -/
theorem container_block [Surroundings] (doc : List DocNode → DocNode) {attrs' : Attrs}
    {contents : Slugged (List DocNode)}
    (read : ((element tag attrs children).reading emoji).block = do return some (doc (← contents)))
    (outside : ∀ docs, (doc docs).isInline = false) (plain : ∀ level, TagKind.ofTag tag ≠ .heading level)
    (perm : attrs'.Perm attrs)
    (written : ∀ docs followsInline, (doc docs).writing.block followsInline =
      do return [element tag attrs' (← Writing.blocks (docs.map DocNode.writing))])
    (below : Slugged.Gives (fun docs => Slugged.Agrees (List.Forall₂ Alike)
      (Writing.blocks (docs.map DocNode.writing)) (anchorAll children)) contents) :
    (element tag attrs children).BlockRestores emoji := by
  rw [BlockRestores, read]
  refine below.bind fun docs agrees => .pure ⟨_, rfl, ?_⟩
  exact restores_element _ (outside docs) plain perm (written docs) agrees

theorem BlocksRestore.agrees [Surroundings] (below : BlocksRestore emoji children) :
    Slugged.Gives (fun docs => Slugged.Agrees (List.Forall₂ Alike) (Writing.blocks (docs.map DocNode.writing))
      (anchorAll children)) (Reading.blocks (children.map (reading emoji))) :=
  below.weaken fun _ both => both.2

theorem listItem_block [Surroundings] (meaning : TagKind.ofTag tag = .listItem)
    (below : BlocksRestore emoji children) : (element tag [] children).BlockRestores emoji := by
  obtain rfl : tag = "li" := TagKind.tag_eq meaning rfl (by decide)
  refine container_block .listItem ?_ (fun _ => rfl) (by rw [meaning]; simp) (.refl []) ?_ below.agrees
  · simp only [block_element, Reading.blockElement, meaning]
  · intro docs followsInline
    rw [DocNode.writing_block]
    rfl

theorem blockquote_block [Surroundings] (meaning : TagKind.ofTag tag = .blockquote)
    (below : BlocksRestore emoji children) : (element tag [] children).BlockRestores emoji := by
  obtain rfl : tag = "blockquote" := TagKind.tag_eq meaning rfl (by decide)
  refine container_block .blockquote ?_ (fun _ => rfl) (by rw [meaning]; simp) (.refl []) ?_ below.agrees
  · simp only [block_element, Reading.blockElement, meaning]
  · intro docs followsInline
    rw [DocNode.writing_block]
    rfl

/-- The slot of a template. -/
theorem template_block [Surroundings] (meaning : TagKind.ofTag tag = .template) (distinct : attrs.Distinct)
    (canonical : attrs.isCanonicalSlot = true) (below : BlocksRestore emoji children) :
    (element tag attrs children).BlockRestores emoji := by
  obtain rfl : tag = "template" := TagKind.tag_eq meaning rfl (by decide)
  have perm := Attrs.slot_perm distinct canonical
  refine container_block (.slot (((element "template" attrs []).slotName?).getD "default")
    (attrs.filter fun entry => !Reading.isSlotAttr entry.1) false) ?_ (fun _ => rfl) (by rw [meaning]; simp) perm ?_
    below.agrees
  · simp only [block_element, Reading.blockElement, meaning, Reading.slot, bind_assoc, pure_bind]
  · intro docs followsInline
    rw [DocNode.writing_block]
    rfl

/-- A list of items is read item by item. -/
theorem listItems_eq_eachBlock [Surroundings] {nodes : List Node} (items : ∀ node ∈ nodes, node.tag? = some "li") :
    Reading.listItems (nodes.map (reading emoji)) = Reading.eachBlock (nodes.map (reading emoji)) := by
  induction nodes with
  | nil => rfl
  | cons node rest ih =>
    obtain ⟨here, others⟩ := List.forall_mem_cons.1 items
    simp only [List.map_cons, Reading.listItems, Reading.eachBlock, ih others, Reading.listItem, reading_node, here,
      if_true, bind_assoc, pure_bind]

/-- Blocks that are read one by one are written one by one. -/
theorem eachBlock_agrees [Surroundings] {nodes : List Node} (each : ∀ node ∈ nodes, node.BlockRestores emoji)
    (noVideo : ∀ node ∈ nodes, node.tag? ≠ some "video") :
    Slugged.Gives (fun docs => Slugged.Agrees (List.Forall₂ Alike) (Writing.blocks (docs.map DocNode.writing))
      (anchorAll nodes)) (Reading.eachBlock (nodes.map (reading emoji))) := by
  refine (eachBlock_restores each).weaken fun docs restores => ?_
  have whole : Slugged.Agrees (List.Forall₂ Alike) (Writing.blocksFrom [] [] (docs.map DocNode.writing ++ []))
      (anchorAll nodes >>= pure) := by
    refine Restores.blocksFrom restores noVideo [] fun written anchored alike => ?_
    rw [Writing.blocksFrom_nil]
    exact .pure alike
  rwa [List.append_nil, bind_pure] at whole

theorem items_agree [Surroundings] {nodes : List Node} (each : ∀ node ∈ nodes, node.BlockRestores emoji)
    (items : ∀ node ∈ nodes, node.tag? = some "li") :
    Slugged.Gives (fun docs => Slugged.Agrees (List.Forall₂ Alike) (Writing.blocks (docs.map DocNode.writing))
      (anchorAll nodes)) (Reading.listItems (nodes.map (reading emoji))) := by
  rw [listItems_eq_eachBlock items]
  exact eachBlock_agrees each fun node member => by rw [items node member]; simp

theorem bulletList_block [Surroundings] (meaning : TagKind.ofTag tag = .bulletList)
    (each : ∀ node ∈ children, node.BlockRestores emoji) (items : ∀ node ∈ children, node.tag? = some "li") :
    (element tag [] children).BlockRestores emoji := by
  obtain rfl : tag = "ul" := TagKind.tag_eq meaning rfl (by decide)
  refine container_block .bulletList ?_ (fun _ => rfl) (by rw [meaning]; simp) (.refl []) ?_
    (items_agree each items)
  · simp only [block_element, Reading.blockElement, meaning]
  · intro docs followsInline
    rw [DocNode.writing_block]
    rfl

theorem orderedList_block [Surroundings] (meaning : TagKind.ofTag tag = .orderedList) (distinct : attrs.Distinct)
    (canonical : attrs.isCanonicalStart = true) (each : ∀ node ∈ children, node.BlockRestores emoji)
    (items : ∀ node ∈ children, node.tag? = some "li") : (element tag attrs children).BlockRestores emoji := by
  obtain rfl : tag = "ol" := TagKind.tag_eq meaning rfl (by decide)
  have start := Attrs.start_eq distinct canonical
  refine container_block (.orderedList (((attrs.get? "start").bind Value.asNat?).getD 1)) ?_ (fun _ => rfl)
    (by rw [meaning]; simp) (.of_eq start) ?_ (items_agree each items)
  · simp only [block_element, Reading.blockElement, meaning]
  · intro docs followsInline
    rw [DocNode.writing_block]
    rfl

theorem sourceOf?_eq_some {code : String} (source : sourceOf? children = some code) :
    children = [.element "code" [("__ignoreMap", .str "")] [.text code]] := by
  unfold sourceOf? at source
  split at source
  · cases source
    rfl
  · cases source

theorem codeBlock_block [Surroundings] (meaning : TagKind.ofTag tag = .codeBlock) (distinct : attrs.Distinct)
    {code : String} (source : sourceOf? children = some code) (canonical : attrs.isCanonicalCode code = true) :
    (element tag attrs children).BlockRestores emoji := by
  obtain rfl : tag = "pre" := TagKind.tag_eq meaning rfl (by decide)
  obtain rfl := sourceOf?_eq_some source
  have perm := Attrs.codeBlock_perm distinct canonical
  have given : attrs.getString? "code" = some code := by
    rw [Attrs.isCanonicalCode, Bool.and_eq_true, decide_eq_true_eq] at canonical
    exact canonical.1
  rw [BlockRestores, block_element]
  simp only [Reading.blockElement, meaning, Reading.codeBlock, given, Option.getD_some]
  refine .pure ⟨_, rfl, restores_element (pure [.element "code" [("__ignoreMap", .str "")] [.text code]]) rfl
    (by rw [meaning]; simp) perm (fun followsInline => ?_) ?_⟩
  · rw [DocNode.writing_block]
    rfl
  · have inner : TagKind.ofTag "code" = .mark .code := TagKind.ofTag_eq_mark_iff.2 rfl
    have plain : ∀ level, TagKind.ofTag "code" ≠ .heading level := by
      rw [inner]
      simp
    rw [anchorAll_of_forall (by simp [anchored_element plain, anchorAll, anchored_text])]
    exact .pure (.cons (Alike.refl _) .nil)

theorem fillsSlot_comp_reading [Surroundings] : Reading.fillsSlot ∘ reading emoji = fillsSlot := by
  funext node
  rw [Function.comp_apply, Reading.fillsSlot, reading_node, fillsSlot]

theorem noVideo_of_fillsSlot {nodes : List Node} (fills : ∀ node ∈ nodes, fillsSlot node = true) :
    ∀ node ∈ nodes, node.tag? ≠ some "video" := by
  intro node member
  rw [(template_of_fillsSlot (fills node member)).1]
  simp

/-- The synthetic slot around the bare content of a component is taken out again. -/
theorem slot_agrees [Surroundings] {front bare back : List Node} {named content : List DocNode}
    (restores : List.Forall₂ Restores named (front ++ back)) (fills : ∀ node ∈ front, fillsSlot node = true)
    (fills' : ∀ node ∈ back, fillsSlot node = true)
    (below : Slugged.Agrees (List.Forall₂ Alike) (Writing.blocks (content.map DocNode.writing)) (anchorAll bare)) :
    Slugged.Agrees (List.Forall₂ Alike)
      (Writing.blocks ((named.take front.length ++
        .slot "default" [] true content :: named.drop front.length).map DocNode.writing))
      (anchorAll (front ++ (bare ++ back))) := by
  have first := List.forall₂_take_append _ _ _ restores
  have last := List.forall₂_drop_append _ _ _ restores
  rw [List.map_append, anchorAll_append]
  refine Restores.blocksFrom first (noVideo_of_fillsSlot fills) [] fun written anchored alike => ?_
  rw [List.map_cons, Writing.blocksFrom_cons rfl, DocNode.writing_block, anchorAll_append]
  simp only [Writing.blockOf, DocNode.children, if_true, bind_pure, bind_assoc, pure_bind, List.nil_append]
  refine below.bind fun inner anchoredInner alikeInner => ?_
  rw [← List.append_nil ((named.drop front.length).map DocNode.writing)]
  refine Restores.blocksFrom last (noVideo_of_fillsSlot fills') _ fun tail anchoredTail alikeTail => ?_
  rw [Writing.blocksFrom_nil, List.append_assoc]
  exact .pure (List.rel_append alike (List.rel_append alikeInner alikeTail))

theorem slots_agree [Surroundings]
    (each : ∀ node ∈ children, isCanonicalBlock node = true → node.BlockRestores emoji)
    (canonical : areCanonicalBlocks [] none children = true) (together : isBareTogether children = true) :
    Slugged.Gives (fun docs => Slugged.Agrees (List.Forall₂ Alike) (Writing.blocks (docs.map DocNode.writing))
      (anchorAll children)) (Reading.slots (children.map (reading emoji))) := by
  obtain ⟨front, bare, back, rfl, fills, outside, fills'⟩ := exists_of_isBareTogether together
  obtain ⟨frontBlocks, later⟩ := areCanonicalBlocks_slots_append fills (by simp [neighbourPlace]) canonical
  obtain ⟨bareBlocks, backBlocks⟩ := areCanonicalBlocks_append_slots fills' later
  rw [List.forall_mem_append, List.forall_mem_append] at each
  obtain ⟨eachFront, eachBare, eachBack⟩ := each
  have named : ∀ node ∈ front ++ back, node.BlockRestores emoji := by
    rw [List.forall_mem_append]
    exact ⟨fun node member => eachFront node member (frontBlocks node member),
      fun node member => eachBack node member (backBlocks node member)⟩
  have slotsOf : ((front ++ (bare ++ back)).map (reading emoji)).filter Reading.fillsSlot =
      (front ++ back).map (reading emoji) := by
    rw [List.filter_map, fillsSlot_comp_reading, List.filter_append, List.filter_append,
      List.filter_eq_self.2 fills,
      List.filter_eq_nil_iff.2 (by simpa using outside), List.filter_eq_self.2 fills', List.nil_append]
  have bareOf : ((front ++ (bare ++ back)).map (reading emoji)).filter (!Reading.fillsSlot ·) =
      bare.map (reading emoji) := by
    have others : (!Reading.fillsSlot ·) ∘ reading emoji = (!fillsSlot ·) := by
      rw [← @fillsSlot_comp_reading emoji]
      rfl
    rw [List.filter_map, others, List.filter_append, List.filter_append,
      List.filter_eq_nil_iff.2 (by simpa using fills), List.filter_eq_self.2 (by simpa using outside),
      List.filter_eq_nil_iff.2 (by simpa using fills'), List.append_nil, List.nil_append]
  simp only [Reading.slots, slotsOf, bareOf]
  by_cases empty : bare = []
  · subst empty
    simp only [List.map_nil, List.isEmpty_nil, if_true, bind_pure, List.nil_append]
    refine eachBlock_agrees named (noVideo_of_fillsSlot ?_)
    exact List.forall_mem_append.2 ⟨fills, fills'⟩
  · have place : (((front ++ (bare ++ back)).map (reading emoji)).takeWhile Reading.fillsSlot).length =
        front.length := by
      rw [List.takeWhile_map, fillsSlot_comp_reading, List.length_map, List.takeWhile_append_of_pos fills]
      cases bare with
      | nil => exact absurd rfl empty
      | cons node rest =>
        have stops := outside node List.mem_cons_self
        rw [List.cons_append, List.takeWhile_cons, stops]
        simp
    have some : (bare.map (reading emoji)).isEmpty = false := by simpa using empty
    simp only [some, Bool.false_eq_true, if_false, place]
    refine (eachBlock_restores named).bind fun docs restores => ?_
    refine (blocksRestore_of_forall eachBare bareBlocks).agrees.bind fun content below => .pure ?_
    exact slot_agrees restores fills fills' below

theorem component_block [Surroundings] (meaning : TagKind.ofTag tag = .component)
    (each : ∀ node ∈ children, isCanonicalBlock node = true → node.BlockRestores emoji)
    (canonical : areCanonicalBlocks [] none children = true) (together : isBareTogether children = true) :
    (element tag attrs children).BlockRestores emoji := by
  refine container_block (.element tag attrs) ?_ (fun _ => rfl) (by rw [meaning]; simp) (.refl attrs) ?_
    (slots_agree each canonical together)
  · simp only [block_element, Reading.blockElement, meaning]
  · intro docs followsInline
    rw [DocNode.writing_block]
    rfl

end Kinds

theorem text_of_isOneText {nodes : List Node} (one : isOneText nodes = true) :
    ∃ content, nodes = [.text content] := by
  unfold isOneText at one
  split at one
  · exact ⟨_, rfl⟩
  · cases one

theorem items_of_canonical [Surroundings] {nodes : List Node} (canonical : areCanonicalItems nodes = true) :
    ∀ node ∈ nodes, node.tag? = some "li" ∧ isCanonicalBlock node = true := by
  induction nodes with
  | nil => simp
  | cons node rest ih =>
    rw [areCanonicalItems, Bool.and_eq_true, Bool.and_eq_true, decide_eq_true_eq] at canonical
    exact List.forall_mem_cons.2 ⟨canonical.1, ih canonical.2⟩

/-- A canonical block is written as it was read. -/
theorem blockRestores [Surroundings] (emoji : Bool) (node : Node) (canonical : isCanonicalBlock node = true) :
    node.BlockRestores emoji := by
  induction node using induction with
  | text content =>
    rw [isCanonicalBlock] at canonical
    cases canonical
  | comment content =>
    rw [BlockRestores, reading]
    refine .pure ⟨.comment content, rfl, rfl, fun followsInline _ => ?_⟩
    rw [DocNode.writing_block, anchored_comment]
    exact .pure ⟨_, rfl, Alike.refl _, rfl⟩
  | element tag attrs children ih =>
    rw [isCanonicalBlock, Bool.and_eq_true] at canonical
    obtain ⟨valid, shape⟩ := canonical
    have distinct := Attrs.distinct_of_wellFormed valid
    cases meaning : TagKind.ofTag tag with
    | paragraph =>
      rw [meaning, Bool.and_eq_true, List.isEmpty_iff] at shape
      obtain ⟨rfl, line⟩ := shape
      exact paragraph_block meaning line
    | heading level =>
      rw [meaning] at shape
      exact heading_block meaning shape
    | bulletList =>
      rw [meaning, Bool.and_eq_true, List.isEmpty_iff] at shape
      obtain ⟨rfl, canonical⟩ := shape
      have items := items_of_canonical canonical
      exact bulletList_block meaning (fun node member => ih node member (items node member).2)
        fun node member => (items node member).1
    | orderedList =>
      rw [meaning, Bool.and_eq_true] at shape
      have items := items_of_canonical shape.2
      exact orderedList_block meaning distinct shape.1 (fun node member => ih node member (items node member).2)
        fun node member => (items node member).1
    | listItem =>
      rw [meaning, Bool.and_eq_true, List.isEmpty_iff] at shape
      obtain ⟨rfl, canonical⟩ := shape
      exact listItem_block meaning (blocksRestore_of_forall ih canonical)
    | blockquote =>
      rw [meaning, Bool.and_eq_true, List.isEmpty_iff] at shape
      obtain ⟨rfl, canonical⟩ := shape
      exact blockquote_block meaning (blocksRestore_of_forall ih canonical)
    | horizontalRule =>
      rw [meaning, Bool.and_eq_true, List.isEmpty_iff, List.isEmpty_iff] at shape
      obtain ⟨rfl, rfl⟩ := shape
      exact horizontalRule_block meaning
    | codeBlock =>
      rw [meaning, Option.any_eq_true] at shape
      obtain ⟨code, source, canonical⟩ := shape
      exact codeBlock_block meaning distinct source canonical
    | template =>
      rw [meaning, Bool.and_eq_true] at shape
      exact template_block meaning distinct shape.1 (blocksRestore_of_forall ih shape.2)
    | html =>
      rw [meaning] at shape
      obtain ⟨content, rfl⟩ := text_of_isOneText shape
      exact html_block meaning content
    | video =>
      rw [meaning, Bool.and_eq_true] at shape
      refine video_block meaning ?_
      rw [isCanonicalLine, areCanonicalInline, isCanonicalInline, meaning, valid, shape.1, shape.2]
      rfl
    | component =>
      rw [meaning, Bool.and_eq_true] at shape
      exact component_block meaning ih shape.1 shape.2
    | _ =>
      rw [meaning] at shape
      exact absurd shape (by simp)

/-- Canonical blocks are written as they were read. -/
theorem blocksRestore [Surroundings] (emoji : Bool) {nodes : List Node}
    (canonical : areCanonicalBlocks [] none nodes = true) : BlocksRestore emoji nodes :=
  blocksRestore_of_forall (fun node _ => blockRestores emoji node) canonical

end Node

end ComponentMarkdown
