import ComponentMarkdown.Platform
import ComponentMarkdown.Proofs.Doc.Shortcodes
import ComponentMarkdown.Proofs.Shortcode

namespace ComponentMarkdown

namespace DocNode

def isListItem : DocNode → Bool
  | listItem _ => true
  | _ => false

def isSlot : DocNode → Bool
  | slot .. => true
  | _ => false

def isSyntheticSlot : DocNode → Bool
  | slot _ _ synthetic _ => synthetic
  | _ => false

def isEmptyText : DocNode → Bool
  | text content _ => content = ""
  | _ => false

/-- Whether two nodes are no texts with equal marks. -/
def isApart : DocNode → DocNode → Bool
  | text _ marks, text _ marks' => !Mark.sameList marks marks'
  | _, _ => true

/-- Whether the texts of a line are joined and none of them is empty. -/
def isTidyLine (nodes : List DocNode) : Bool :=
  nodes.all (!isEmptyText ·) && decide (nodes.IsChain fun node next => node.isApart next = true)

/-- Whether the children of a node are of the kind that the node is for. A component of the tag `html` holds its
source. The frontmatter is no child. -/
def fitsSchema : DocNode → Bool
  | frontmatter .. => false
  | listItem children | blockquote children | slot _ _ _ children => children.all (!isInline ·)
  | bulletList children | orderedList _ children => children.all isListItem
  | element tag _ children => tag = "html" || children.all isSlot && children.countP isSyntheticSlot ≤ 1
  | paragraph _ children | heading _ _ children | inlineElement _ _ children _ | link _ _ _ _ children _
  | spanStyle _ _ _ children _ => isTidyLine children
  | _ => true

/-- A node that can stand among blocks. -/
structure FitsBlocks (node : DocNode) : Prop where
  outside : node.isInline = false
  fits : node.everywhere fitsSchema = true

/-- A node that can stand in a line. -/
structure FitsLine (node : DocNode) : Prop where
  fits : node.everywhere fitsSchema = true
  wellMarked : node.isWellMarked = true
  some : node.isEmptyText = false

theorem FitsBlocks.fitsLine {node : DocNode} (block : node.FitsBlocks) : node.FitsLine := by
  refine ⟨block.fits, ?_, ?_⟩
  · have outside := block.outside
    cases node <;> first | rfl | cases outside
  · have outside := block.outside
    cases node <;> first | rfl | cases outside

/-- A node that is for blocks, around blocks. -/
theorem FitsBlocks.everywhere_of_children {node : DocNode} (blocks : ∀ child ∈ node.children, child.FitsBlocks)
    (container : node.fitsSchema = node.children.all (!isInline ·)) : node.everywhere fitsSchema = true := by
  refine everywhere_iff.2 ⟨?_, fun child member => (blocks child member).fits⟩
  rw [container, List.all_eq_true]
  exact fun child member => by rw [(blocks child member).outside]; rfl

theorem everywhere_of_items {node : DocNode}
    (items : ∀ child ∈ node.children, child.isListItem = true ∧ child.everywhere fitsSchema = true)
    (list : node.fitsSchema = node.children.all isListItem) : node.everywhere fitsSchema = true := by
  refine everywhere_iff.2 ⟨?_, fun child member => (items child member).2⟩
  rw [list, List.all_eq_true]
  exact fun child member => (items child member).1

theorem FitsLine.leaf {node : DocNode} (fits : node.fitsSchema = true) (none : node.children = [])
    (wellMarked : node.isWellMarked = true) (some : node.isEmptyText = false) : node.FitsLine :=
  ⟨everywhere_iff.2 ⟨fits, by rw [none]; exact List.forall_mem_nil _⟩, wellMarked, some⟩

theorem FitsLine.text {content : String} {marks : List Mark} (some : content ≠ "")
    (valid : marks.all Mark.wellFormed = true) : (DocNode.text content marks).FitsLine :=
  .leaf rfl rfl valid (by simpa [isEmptyText] using some)

theorem isApart_iff {node next : DocNode} : node.isApart next = true ↔ joined? node next = none := by
  unfold isApart joined?
  split
  · split <;> simp_all
  · simp

/-- Joining the texts of a line gives texts that say something, with no two in a row that have equal marks. -/
theorem isTidyLine_joinTexts {nodes : List DocNode} (each : ∀ node ∈ nodes, node.FitsLine) :
    isTidyLine (Reading.joinTexts nodes) = true := by
  have closed : ∀ x y z, x.FitsLine → y.FitsLine → joined? x y = some z → z.FitsLine := by
    intro x y z valid _ merged
    obtain ⟨content, marks, next, marks', rfl, rfl, _, rfl⟩ := joined?_eq_some merged
    have some : content ≠ "" := by simpa [isEmptyText] using valid.some
    exact .text (by simp [some]) valid.wellMarked
  have apart : ∀ x y z w, x.FitsLine → y.FitsLine → w.FitsLine → joined? x y = some z → joined? y w = none →
      joined? z w = none := by
    intro x y z w valid valid' _ merged apart
    obtain ⟨content, marks, next, marks', rfl, rfl, same, rfl⟩ := joined?_eq_some merged
    cases w with
    | text last marks'' =>
      have equal : Mark.sameList marks marks'' = true ↔ Mark.sameList marks' marks'' = true :=
        MarkedNode.sameList_left_iff valid.wellMarked valid'.wellMarked same
      rw [← isApart_iff, isApart, Bool.not_eq_true', Bool.eq_false_iff, ne_eq] at apart ⊢
      rwa [equal]
    | _ => rfl
  have chain := isChain_mergeNeighbours closed apart each
  have parts := forall_mergeNeighbours closed each
  rw [← joinTexts_eq] at chain parts
  rw [isTidyLine, Bool.and_eq_true, List.all_eq_true, decide_eq_true_eq]
  exact ⟨fun node member => by rw [(parts node member).some]; rfl, chain.imp fun _ _ => isApart_iff.2⟩

theorem joinTexts_everywhere {nodes : List DocNode} (each : ∀ node ∈ nodes, node.FitsLine) :
    ∀ node ∈ Reading.joinTexts nodes, node.everywhere fitsSchema = true := by
  rw [joinTexts_eq]
  refine forall_mergeNeighbours (fun x y z _ _ merged => ?_) fun node member => (each node member).fits
  obtain ⟨_, _, _, _, _, _, _, rfl⟩ := joined?_eq_some merged
  exact everywhere_iff.2 ⟨rfl, List.forall_mem_nil _⟩

/-- What a node that holds a line gets from its children. -/
structure IsLine (nodes : List DocNode) : Prop where
  tidy : isTidyLine nodes = true
  fits : ∀ node ∈ nodes, node.everywhere fitsSchema = true

theorem isLine_joinTexts {nodes : List DocNode} (each : ∀ node ∈ nodes, node.FitsLine) :
    IsLine (Reading.joinTexts nodes) := ⟨isTidyLine_joinTexts each, joinTexts_everywhere each⟩

theorem IsLine.around {node : DocNode} {docs : List DocNode} (content : IsLine docs) (inside : node.children = docs)
    (holder : node.fitsSchema = isTidyLine docs) : node.everywhere fitsSchema = true := by
  subst inside
  exact everywhere_iff.2 ⟨by rw [holder, content.tidy], content.fits⟩

end DocNode

namespace Node

/-- What a node becomes among blocks. A text never stands there, and lists and components rely on what their items
and slots become. -/
structure BecomesBlock (node : Node) (doc : DocNode) : Prop where
  fits : doc.everywhere DocNode.fitsSchema = true
  outside : node.isText = false → doc.isInline = false
  item : node.tag? = some "li" → doc.isListItem = true
  slot : node.fillsSlot = true → doc.isSlot = true ∧ doc.isSyntheticSlot = false

/-- Both readings of a node fit where they are used. -/
structure FitsSchema [Surroundings] (emoji : Bool) (node : Node) : Prop where
  inline (marks : List Mark) : marks.all Mark.wellFormed = true →
    Slugged.Gives (fun docs => ∀ doc ∈ docs, doc.FitsLine) ((node.reading emoji).inline marks)
  block : Slugged.Gives (fun doc => ∀ found ∈ doc, node.BecomesBlock found) (node.reading emoji).block

theorem isText_eq_false_of_block {before after : Option Node} {node : Node}
    (block : isInlineBetween before node after = false) : node.isText = false := by
  cases node with
  | text => cases block
  | comment | element => rfl

end Node

namespace Reading

open DocNode (FitsBlocks FitsLine IsLine)

/-- No piece of a text is empty. -/
theorem textNodes_fitsLine [Surroundings] (emoji : Bool) (content : String) {marks : List Mark}
    (valid : marks.all Mark.wellFormed = true) : ∀ doc ∈ textNodes emoji content marks, FitsLine doc := by
  by_cases empty : content = ""
  · rw [textNodes, if_pos empty]
    exact List.forall_mem_nil _
  cases emoji with
  | false =>
    rw [textNodes_false empty]
    exact List.forall_mem_singleton.2 (.text empty valid)
  | true =>
    rw [textNodes_true empty]
    intro doc member
    obtain ⟨piece, inside, rfl⟩ := List.mem_map.1 member
    cases piece with
    | plain text =>
      have some := Shortcode.plain_ne_nil _ text inside
      exact .text (fun none => some (by simpa using none)) valid
    | emoji name glyph => exact .leaf rfl rfl valid rfl

section Lists

variable [Surroundings] {emoji : Bool} {nodes : List Node} (each : ∀ node ∈ nodes, node.FitsSchema emoji)

include each

theorem inlines_fitsLine {marks : List Mark} (valid : marks.all Mark.wellFormed = true) :
    Slugged.Gives (fun docs => ∀ doc ∈ docs, FitsLine doc) (inlines marks (nodes.map (Node.reading emoji))) := by
  induction nodes with
  | nil => exact .pure (List.forall_mem_nil _)
  | cons node rest ih =>
    obtain ⟨here, below⟩ := List.forall_mem_cons.1 each
    rw [List.map_cons, inlines]
    refine (here.inline marks valid).bind fun docs first => (ih below).bind fun tail later => .pure ?_
    exact List.forall_mem_append.2 ⟨first, later⟩

theorem line_isLine : Slugged.Gives IsLine (line (nodes.map (Node.reading emoji))) :=
  (inlines_fitsLine each rfl).bind fun _ docs => .pure (DocNode.isLine_joinTexts docs)

theorem paragraph_fitsBlocks :
    Slugged.Gives (fun docs => ∀ doc ∈ docs, FitsBlocks doc) (paragraph (nodes.map (Node.reading emoji))) := by
  rw [paragraph]
  split
  · exact .pure (List.forall_mem_nil _)
  · refine (line_isLine each).bind fun docs content => .pure (List.forall_mem_singleton.2 ⟨rfl, ?_⟩)
    exact content.around rfl rfl

/-- What is read of blocks can stand among blocks, given that what waits in front can be read as a line. -/
theorem blocksFrom_fitsBlocks {waiting : List Node} (inFront : ∀ node ∈ waiting, node.FitsSchema emoji)
    (before : Option Node) : Slugged.Gives (fun docs => ∀ doc ∈ docs, FitsBlocks doc)
      (blocksFrom (waiting.map (Node.reading emoji)) before (nodes.map (Node.reading emoji))) := by
  induction nodes generalizing waiting before with
  | nil =>
    rw [List.map_nil, blocksFrom]
    exact paragraph_fitsBlocks inFront
  | cons node rest ih =>
    obtain ⟨here, below⟩ := List.forall_mem_cons.1 each
    rw [List.map_cons, blocksFrom, Node.reading_node]
    split
    · have longer := ih below (List.forall_mem_append.2 ⟨inFront, List.forall_mem_singleton.2 here⟩) (some node)
      rwa [List.map_append, List.map_singleton] at longer
    · rename_i outside
      rw [Bool.not_eq_true] at outside
      refine (paragraph_fitsBlocks inFront).bind fun first line => ?_
      refine here.block.bind fun block single => ?_
      refine (@ih below [] (List.forall_mem_nil _) (some node)).bind fun tail later => .pure ?_
      refine List.forall_mem_append.2 ⟨List.forall_mem_append.2 ⟨line, fun doc member => ?_⟩, later⟩
      have becomes := single doc (Option.mem_toList.1 member)
      exact ⟨becomes.outside (Node.isText_eq_false_of_block outside), becomes.fits⟩

theorem blocks_fitsBlocks :
    Slugged.Gives (fun docs => ∀ doc ∈ docs, FitsBlocks doc) (blocks (nodes.map (Node.reading emoji))) :=
  @blocksFrom_fitsBlocks _ emoji nodes each [] (List.forall_mem_nil _) none

/-- The children of a list are items, those that are read as such and those that are made for other content. -/
theorem listItems_fitSchema : Slugged.Gives
    (fun docs => ∀ doc ∈ docs, doc.isListItem = true ∧ doc.everywhere DocNode.fitsSchema = true)
    (listItems (nodes.map (Node.reading emoji))) := by
  induction nodes with
  | nil => exact .pure (List.forall_mem_nil _)
  | cons node rest ih =>
    obtain ⟨here, below⟩ := List.forall_mem_cons.1 each
    have item : Slugged.Gives
        (fun docs => ∀ doc ∈ docs, doc.isListItem = true ∧ doc.everywhere DocNode.fitsSchema = true)
        (listItem (node.reading emoji)) := by
      rw [listItem, Node.reading_node]
      split
      · rename_i tagged
        refine here.block.bind fun block single => .pure fun doc member => ?_
        have becomes := single doc (Option.mem_toList.1 member)
        exact ⟨becomes.item tagged, becomes.fits⟩
      · split
        · exact .pure (List.forall_mem_nil _)
        · refine (blocks_fitsBlocks (List.forall_mem_singleton.2 here)).bind fun docs content => .pure ?_
          exact List.forall_mem_singleton.2 ⟨rfl, FitsBlocks.everywhere_of_children content rfl⟩
    rw [List.map_cons, listItems]
    exact item.bind fun first parts => (ih below).bind fun tail later =>
      .pure (List.forall_mem_append.2 ⟨parts, later⟩)

theorem eachBlock_fitSchema (slots : ∀ node ∈ nodes, node.fillsSlot = true) : Slugged.Gives
    (fun docs => ∀ doc ∈ docs, (doc.isSlot = true ∧ doc.isSyntheticSlot = false) ∧
      doc.everywhere DocNode.fitsSchema = true)
    (eachBlock (nodes.map (Node.reading emoji))) := by
  induction nodes with
  | nil => exact .pure (List.forall_mem_nil _)
  | cons node rest ih =>
    obtain ⟨here, below⟩ := List.forall_mem_cons.1 each
    obtain ⟨fills, others⟩ := List.forall_mem_cons.1 slots
    rw [List.map_cons, eachBlock]
    refine here.block.bind fun block single => (ih below others).bind fun tail later => .pure ?_
    refine List.forall_mem_append.2 ⟨fun doc member => ?_, later⟩
    have becomes := single doc (Option.mem_toList.1 member)
    exact ⟨becomes.slot fills, becomes.fits⟩

/-- The children of a component are slots, and only the one that is made for what stands outside of slots is
synthetic. -/
theorem slots_fitSchema (tag : String) (attrs : Attrs) : Slugged.Gives
    (fun docs => (DocNode.element tag attrs docs).everywhere DocNode.fitsSchema = true)
    (slots (nodes.map (Node.reading emoji))) := by
  have named : (nodes.map (Node.reading emoji)).filter fillsSlot =
      (nodes.filter Node.fillsSlot).map (Node.reading emoji) := by
    rw [List.filter_map, Node.fillsSlot_comp_reading]
  have bare : (nodes.map (Node.reading emoji)).filter (!fillsSlot ·) =
      (nodes.filter (!Node.fillsSlot ·)).map (Node.reading emoji) := by
    rw [List.filter_map, ← @Node.fillsSlot_comp_reading emoji]
    rfl
  simp only [slots, named, bare]
  refine (eachBlock_fitSchema (fun node member => each node (List.mem_of_mem_filter member))
    fun node member => (List.mem_filter.1 member).2).bind fun docs slots => ?_
  have none : ∀ part : List DocNode, part ⊆ docs → part.countP DocNode.isSyntheticSlot = 0 := by
    intro part inside
    rw [List.countP_eq_zero]
    exact fun doc member => by rw [(slots doc (inside member)).1.2]; exact Bool.false_ne_true
  split
  · refine .pure (DocNode.everywhere_iff.2 ⟨?_, fun doc member => (slots doc member).2⟩)
    have all : docs.all DocNode.isSlot = true := List.all_eq_true.2 fun doc member => (slots doc member).1.1
    rw [DocNode.fitsSchema, all, none docs (List.Subset.refl _)]
    simp
  · refine (blocks_fitsBlocks fun node member => each node (List.mem_of_mem_filter member)).bind
      fun content inside => .pure (DocNode.everywhere_iff.2 ?_)
    generalize ((nodes.map (Node.reading emoji)).takeWhile fillsSlot).length = place
    have made : (DocNode.slot "default" [] true content).everywhere DocNode.fitsSchema = true :=
      FitsBlocks.everywhere_of_children inside rfl
    have front := List.take_subset place docs
    have back := List.drop_subset place docs
    have all :
        (docs.take place ++ .slot "default" [] true content :: docs.drop place).all DocNode.isSlot = true := by
      refine List.all_eq_true.2 (List.forall_mem_append.2 ⟨fun doc member => (slots doc (front member)).1.1, ?_⟩)
      exact List.forall_mem_cons.2 ⟨rfl, fun doc member => (slots doc (back member)).1.1⟩
    have one : (docs.take place ++ .slot "default" [] true content :: docs.drop place).countP
        DocNode.isSyntheticSlot = 1 := by
      rw [List.countP_append, none _ front, List.countP_cons_of_pos rfl, none _ back]
    refine ⟨by rw [DocNode.fitsSchema, all, one]; simp, ?_⟩
    refine List.forall_mem_append.2 ⟨fun doc member => (slots doc (front member)).2, ?_⟩
    exact List.forall_mem_cons.2 ⟨made, fun doc member => (slots doc (back member)).2⟩

end Lists

section Element

variable [Surroundings] {emoji : Bool} {tag : String} {attrs : Attrs} {children : List Node}
    (map : attrs.wellFormed = true)
  (each : ∀ child ∈ children, child.FitsSchema emoji)

include each

/-- A node in a line that holds a line itself. -/
theorem around_fitsLine {doc : List DocNode → DocNode}
    (fits : ∀ docs, IsLine docs → FitsLine (doc docs)) : Slugged.Gives (fun docs => ∀ doc ∈ docs, FitsLine doc)
      (do return [doc (← line (children.map (Node.reading emoji)))]) :=
  (line_isLine each).bind fun docs content => .pure (List.forall_mem_singleton.2 (fits docs content))

include map

theorem marked_fitsLine (kind : MarkKind) {marks : List Mark} (valid : marks.all Mark.wellFormed = true) :
    Slugged.Gives (fun docs => ∀ doc ∈ docs, FitsLine doc)
      (marked kind attrs (children.map (Node.reading emoji)) marks) := by
  have format : ∀ (kind : MarkKind) (attrs : Attrs), attrs.wellFormed = true →
      Slugged.Gives (fun docs => ∀ doc ∈ docs, FitsLine doc)
        (inlines (Mark.compose marks ⟨kind, attrs⟩) (children.map (Node.reading emoji))) := by
    intro kind attrs map
    refine inlines_fitsLine each ?_
    rw [Mark.compose, List.all_cons, Mark.wellFormed, map, valid]
    rfl
  cases kind with
  | code =>
    refine .pure fun doc member => ?_
    have wellMarked := codeText_wellMarked map valid doc member
    rw [codeText] at member
    split at member
    · cases member
    · rename_i some
      rw [List.mem_singleton] at member
      subst member
      exact .text some wellMarked
  | link =>
    rw [marked]
    split
    · exact format .link _ (LinkPolicy.editorAttrs_wellFormed map)
    · simp only [linkNode, bind_assoc, pure_bind]
      exact around_fitsLine each fun docs content => ⟨content.around rfl rfl, valid, rfl⟩
  | bold => exact format .bold attrs map
  | italic => exact format .italic attrs map
  | strike => exact format .strike attrs map

theorem inlineElement_fitsLine {marks : List Mark} (valid : marks.all Mark.wellFormed = true) :
    Slugged.Gives (fun docs => ∀ doc ∈ docs, FitsLine doc)
      (inlineElement tag attrs (children.map (Node.reading emoji)) marks) := by
  have leaf : ∀ doc : DocNode, doc.fitsSchema = true → doc.children = [] → doc.isWellMarked = true →
      doc.isEmptyText = false → Slugged.Gives (fun docs => ∀ doc ∈ docs, FitsLine doc) (pure [doc]) := by
    intro doc fits none wellMarked some
    exact .pure (List.forall_mem_singleton.2 (.leaf fits none wellMarked some))
  simp only [inlineElement]
  cases TagKind.ofTag tag with
  | mark kind => exact marked_fitsLine map each kind valid
  | lineBreak => exact leaf _ rfl rfl valid rfl
  | image => exact leaf _ rfl rfl valid rfl
  | video => exact leaf _ rfl rfl valid rfl
  | binding => exact leaf _ rfl rfl valid rfl
  | span | component | template | html =>
    exact around_fitsLine each fun docs content => ⟨content.around rfl rfl, valid, rfl⟩
  | _ => exact .pure (List.forall_mem_nil _)

theorem blockElement_fitsBlocks : Slugged.Gives (fun doc => ∀ found ∈ doc, FitsBlocks found)
    (blockElement tag attrs (children.map (Node.reading emoji))) := by
  have single : ∀ {doc : DocNode}, doc.FitsBlocks → ∀ found ∈ some doc, FitsBlocks found := by
    rintro doc block _ ⟨⟩
    exact block
  have around : ∀ {given : List DocNode → Prop} {content : Slugged (List DocNode)} (doc : List DocNode → DocNode),
      Slugged.Gives given content → (∀ docs, given docs → FitsBlocks (doc docs)) →
      Slugged.Gives (fun doc => ∀ found ∈ doc, FitsBlocks found) (do return some (doc (← content))) := by
    intro given content doc reads fits
    exact reads.bind fun docs holds => .pure (single (fits docs holds))
  have leaf : ∀ doc : DocNode, doc.isInline = false → doc.fitsSchema = true →
      (∀ child ∈ doc.children, child.everywhere DocNode.fitsSchema = true) →
      Slugged.Gives (fun doc => ∀ found ∈ doc, FitsBlocks found) (pure (some doc)) := by
    intro doc outside fits below
    exact .pure (single ⟨outside, DocNode.everywhere_iff.2 ⟨fits, below⟩⟩)
  have text : ∀ content, (DocNode.text content []).everywhere DocNode.fitsSchema = true := fun content =>
    DocNode.everywhere_iff.2 ⟨rfl, List.forall_mem_nil _⟩
  have lines := line_isLine each
  have blocks := blocks_fitsBlocks each
  have items := listItems_fitSchema each
  simp only [blockElement]
  cases meaning : TagKind.ofTag tag with
  | paragraph => exact around _ lines fun docs content => ⟨rfl, content.around rfl rfl⟩
  | heading level =>
    refine (Slugged.Gives.any _).bind fun id _ => ?_
    exact around (.heading level id) lines fun docs content => ⟨rfl, content.around rfl rfl⟩
  | bulletList => exact around _ items fun docs items => ⟨rfl, DocNode.everywhere_of_items items rfl⟩
  | orderedList => exact around _ items fun docs items => ⟨rfl, DocNode.everywhere_of_items items rfl⟩
  | listItem => exact around _ blocks fun docs blocks => ⟨rfl, FitsBlocks.everywhere_of_children blocks rfl⟩
  | blockquote => exact around _ blocks fun docs blocks => ⟨rfl, FitsBlocks.everywhere_of_children blocks rfl⟩
  | template =>
    simp only [slot, bind_assoc, pure_bind]
    exact around (.slot _ _ false) blocks fun docs blocks => ⟨rfl, FitsBlocks.everywhere_of_children blocks rfl⟩
  | component => exact around _ (slots_fitSchema each tag attrs) fun docs slots => ⟨rfl, slots⟩
  | horizontalRule => exact leaf _ rfl rfl (List.forall_mem_nil _)
  | codeBlock =>
    refine leaf _ rfl rfl fun child member => ?_
    simp only [codeBlock, DocNode.children] at member
    split at member
    · cases member
    · rw [List.mem_singleton.1 member]
      exact text _
  | html =>
    have only : tag = "html" := TagKind.tag_eq meaning rfl (by decide)
    refine leaf _ rfl ?_ (List.forall_mem_singleton.2 (text _))
    rw [DocNode.fitsSchema, only]
    rfl
  | style =>
    refine .pure ?_
    rintro _ ⟨⟩
  | lineBreak | image | video | span | binding | mark kind =>
    refine (inlineElement_fitsLine map each rfl).bind fun docs parts => .pure (single ⟨rfl, ?_⟩)
    exact (DocNode.isLine_joinTexts parts).around rfl rfl

omit map each in
/-- An item is read as an item, wherever it stands. -/
theorem blockElement_item : Slugged.Gives (fun doc => ∀ found ∈ doc, found.isListItem = true)
    (blockElement "li" attrs (children.map (Node.reading emoji))) := by
  have meaning : TagKind.ofTag "li" = .listItem := rfl
  simp only [blockElement, meaning]
  refine (Slugged.Gives.any _).bind fun docs _ => .pure ?_
  rintro _ ⟨⟩
  rfl

omit map each in
theorem blockElement_slot :
    Slugged.Gives (fun doc => ∀ found ∈ doc, found.isSlot = true ∧ found.isSyntheticSlot = false)
      (blockElement "template" attrs (children.map (Node.reading emoji))) := by
  have meaning : TagKind.ofTag "template" = .template := rfl
  simp only [blockElement, meaning, slot, bind_assoc, pure_bind]
  refine (Slugged.Gives.any _).bind fun docs _ => .pure ?_
  rintro _ ⟨⟩
  exact ⟨rfl, rfl⟩

end Element

end Reading

namespace Node

theorem fitsSchema_element [Surroundings] {emoji : Bool} {tag : String} {attrs : Attrs} {children : List Node}
    (map : attrs.wellFormed = true) (each : ∀ child ∈ children, child.FitsSchema emoji) :
    (element tag attrs children).FitsSchema emoji := by
  have block := @Reading.blockElement_fitsBlocks _ emoji tag attrs children map each
  refine ⟨fun marks valid => ?_, ?_⟩
  · rw [reading_element, Reading.ofElement]
    by_cases outside : Reading.isBlockTag tag = true
    · simp only [outside, if_true]
      refine block.bind fun doc fits => .pure fun found member => ?_
      exact (fits found (Option.mem_toList.1 member)).fitsLine
    · simp only [outside, Bool.false_eq_true, if_false]
      exact Reading.inlineElement_fitsLine map each valid
  · rw [block_element]
    intro registry found member
    have fits := block registry found member
    refine ⟨fits.fits, fun _ => fits.outside, ?_, ?_⟩
    · rintro ⟨⟩
      exact Reading.blockElement_item registry found member
    · intro fills
      obtain ⟨tagged, _⟩ := template_of_fillsSlot fills
      cases tagged
      exact Reading.blockElement_slot registry found member

theorem fitsSchema [Surroundings] {emoji : Bool} {node : Node} (valid : node.wellFormed = true) :
    node.FitsSchema emoji := by
  induction node using induction with
  | text content =>
    refine ⟨fun marks valid => ?_, ?_⟩
    · rw [reading]
      exact .pure (Reading.textNodes_fitsLine emoji content valid)
    · rw [reading]
      refine .pure ?_
      rintro _ ⟨⟩
      exact ⟨DocNode.everywhere_iff.2 ⟨rfl, List.forall_mem_nil _⟩, nofun, nofun, nofun⟩
  | comment content =>
    have fits : (DocNode.comment content).everywhere DocNode.fitsSchema = true :=
      DocNode.everywhere_iff.2 ⟨rfl, List.forall_mem_nil _⟩
    refine ⟨fun marks valid => ?_, ?_⟩
    · rw [reading]
      exact .pure (List.forall_mem_singleton.2 ⟨fits, rfl, rfl⟩)
    · rw [reading]
      refine .pure ?_
      rintro _ ⟨⟩
      exact ⟨fits, fun _ => rfl, nofun, nofun⟩
  | element tag attrs children ih =>
    obtain ⟨map, below⟩ := wellFormed_element_iff.1 valid
    exact fitsSchema_element map fun child member => ih child member (below child member)

end Node

namespace Doc

/-- The document of a tree is its frontmatter and then blocks, of which every part fits the schema. -/
theorem ofTree_fitsSchema [Surroundings] (tree : Tree) (valid : Node.allWellFormed tree.nodes = true)
    (emoji : Bool) :
    ∃ data error metadata blocks, (ofTree tree emoji).content = .frontmatter data error metadata :: blocks ∧
      ∀ node ∈ blocks, node.isInline = false ∧ node.everywhere DocNode.fitsSchema = true := by
  have each : ∀ node ∈ tree.nodes, node.FitsSchema emoji := fun node member =>
    Node.fitsSchema (Node.allWellFormed_iff.1 valid node member)
  obtain ⟨data, error, first⟩ := frontmatterNode_eq tree
  refine ⟨data, error, tree.metadata, _, by rw [ofTree_eq, first], fun node member => ?_⟩
  have fits := Reading.blocks_fitsBlocks each .empty node member
  exact ⟨fits.outside, fits.fits⟩

/-- Text between blocks, a slot behind bare content, a stray child of a list, and a list in a line. -/
theorem ofTree_fitsSchema_page :
    letI : Surroundings := .platform
    let page : Tree := ⟨[.text "a", .element "card" [("id", .str "c")] [.text "b :tada:",
        .element "template" [("v-slot:footer", .str "")] [.element "video" [] []]],
      .element "ul" [] [.element "strong" [] [.text "c"], .element "li" [] []],
      .element "p" [] [.text "", .text "d", .text "e", .element "ul" [] [.text "f"]]], .str "x", []⟩
    Node.allWellFormed page.nodes = true ∧
      ∃ data error metadata blocks, (ofTree page true).content = .frontmatter data error metadata :: blocks ∧
        ∀ node ∈ blocks, node.isInline = false ∧ node.everywhere DocNode.fitsSchema = true :=
  ⟨by decide, @ofTree_fitsSchema .platform _ (by decide) true⟩

end Doc

end ComponentMarkdown
