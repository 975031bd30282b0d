import ComponentMarkdown.Platform
import ComponentMarkdown.Proofs.Doc.WrittenAlike
import ComponentMarkdown.Proofs.RoundTrip

namespace ComponentMarkdown

namespace Node

mutual

/-- Whether the attributes of every element in a node are a map. -/
def wellFormed : Node → Bool
  | .element _ attrs children => attrs.wellFormed && allWellFormed children
  | _ => true

def allWellFormed : List Node → Bool
  | [] => true
  | node :: rest => node.wellFormed && allWellFormed rest

end

theorem allWellFormed_iff {nodes : List Node} :
    allWellFormed nodes = true ↔ ∀ node ∈ nodes, node.wellFormed = true := by
  induction nodes with
  | nil => simp [allWellFormed]
  | cons node rest ih => rw [allWellFormed, Bool.and_eq_true, ih, List.forall_mem_cons]

theorem wellFormed_element_iff {tag : String} {attrs : Attrs} {children : List Node} :
    (element tag attrs children).wellFormed = true ↔
      attrs.wellFormed = true ∧ ∀ child ∈ children, child.wellFormed = true := by
  rw [wellFormed, Bool.and_eq_true, allWellFormed_iff]

end Node

namespace DocNode

/-- The nodes of a text are joined to the text, whether shortcodes are replaced or not. -/
theorem runs_textNodes [Surroundings] (emoji : Bool) {content : String} (nonempty : content ≠ "")
    {marks : List Mark} (valid : marks.all Mark.wellFormed = true) :
    runs (Reading.textNodes emoji content marks) = pure [⟨marks, .text content⟩] := by
  obtain ⟨texts, some, joined, written⟩ := Reading.marked_textNodes emoji nonempty marks
  rw [runs, written, pure_bind, MarkedNode.coalesce_texts valid some, joined]

theorem textNodes_wellMarked [Surroundings] (emoji : Bool) {content : String} (nonempty : content ≠ "")
    {marks : List Mark} (valid : marks.all Mark.wellFormed = true) :
    ∀ doc ∈ Reading.textNodes emoji content marks, doc.isWellMarked = true := by
  intro doc member
  rw [isWellMarked, Reading.marks_textNodes nonempty member, valid]

theorem textNodes_alike [Surroundings] (content : String) {marks : List Mark}
    (valid : marks.all Mark.wellFormed = true) :
    LinesAlike (Reading.textNodes true content marks) (Reading.textNodes false content marks) := by
  by_cases empty : content = ""
  · rw [Reading.textNodes, Reading.textNodes, if_pos empty, if_pos empty]
    exact .nil
  · refine ⟨textNodes_wellMarked true empty valid, textNodes_wellMarked false empty valid, ?_⟩
    rw [runs_textNodes true empty valid, runs_textNodes false empty valid]

end DocNode

namespace Node

/-- Reading a node with and without replacing shortcodes gives nodes that are written alike. -/
structure ReadsAlike [Surroundings] (node : Node) : Prop where
  block : Slugged.Agrees (Option.Rel DocNode.WrittenAlike) (node.reading true).block (node.reading false).block
  inline (marks : List Mark) : marks.all Mark.wellFormed = true →
    Slugged.Agrees DocNode.LinesAlike ((node.reading true).inline marks) ((node.reading false).inline marks)

end Node

namespace Doc

theorem toTree_congr [Surroundings] {doc other : Doc}
    (written : Writing.blocks (doc.content.map DocNode.writing) =
    Writing.blocks (other.content.map DocNode.writing))
    (frontmatter : doc.frontmatter? = other.frontmatter?) : doc.toTree = other.toTree := by
  rw [toTree, toTree, written, frontmatter]

end Doc

namespace Reading

open Node (ReadsAlike reading)

theorem forall₂_toList [Surroundings] {block block' : Option DocNode}
    (alike : Option.Rel DocNode.WrittenAlike block block') :
    List.Forall₂ DocNode.WrittenAlike block.toList block'.toList := by
  cases alike with
  | none => exact .nil
  | some alike => exact .cons alike .nil

variable [Surroundings] {nodes : List Node} (each : ∀ node ∈ nodes, ReadsAlike node)

include each

theorem inlines_alike {marks : List Mark} (valid : marks.all Mark.wellFormed = true) :
    Slugged.Agrees DocNode.LinesAlike (inlines marks (nodes.map (reading true)))
      (inlines marks (nodes.map (reading false))) := by
  induction nodes with
  | nil => exact .pure .nil
  | cons node rest ih =>
    obtain ⟨here, below⟩ := List.forall_mem_cons.1 each
    rw [List.map_cons, List.map_cons, inlines, inlines]
    refine (here.inline marks valid).bind fun docs others first => (ih below).bind fun tail tail' later => ?_
    exact .pure (first.append later)

theorem line_alike :
    Slugged.Agrees DocNode.LinesAlike (line (nodes.map (reading true))) (line (nodes.map (reading false))) :=
  (inlines_alike each rfl).bind fun _ _ alike => .pure alike.joinTexts

theorem paragraph_alike :
    Slugged.Agrees (List.Forall₂ DocNode.WrittenAlike) (paragraph (nodes.map (reading true)))
      (paragraph (nodes.map (reading false))) := by
  have layout : ∀ emoji, (nodes.map (reading emoji)).all (fun item => isBlankText item.node) =
      nodes.all isBlankText := by
    intro emoji
    rw [List.all_map]
    exact congrArg nodes.all (funext fun node => by rw [Function.comp_apply, Node.reading_node])
  rw [paragraph, paragraph, layout, layout]
  split
  · exact .pure .nil
  · refine (line_alike each).bind fun docs others alike => .pure (.cons ?_ .nil)
    exact DocNode.WrittenAlike.paragraph true alike

/-- What is read of blocks is written alike, given that what waits to be read as a line is. -/
theorem blocksFrom_alike {waiting : List Node} (inFront : ∀ node ∈ waiting, ReadsAlike node)
    (before : Option Node) : Slugged.Agrees (List.Forall₂ DocNode.WrittenAlike)
      (blocksFrom (waiting.map (reading true)) before (nodes.map (reading true)))
      (blocksFrom (waiting.map (reading false)) before (nodes.map (reading false))) := by
  induction nodes generalizing waiting before with
  | nil =>
    rw [List.map_nil, List.map_nil, blocksFrom, blocksFrom]
    exact paragraph_alike inFront
  | cons node rest ih =>
    obtain ⟨here, below⟩ := List.forall_mem_cons.1 each
    rw [List.map_cons, List.map_cons, blocksFrom, blocksFrom, Node.reading_node, Node.reading_node,
      Node.head?_map_reading, Node.head?_map_reading]
    split
    · have longer := ih below (List.forall_mem_append.2 ⟨inFront, List.forall_mem_singleton.2 here⟩) (some node)
      simpa only [List.map_append, List.map_singleton] using longer
    · refine (paragraph_alike inFront).bind fun first first' alike => ?_
      refine here.block.bind fun block block' single => ?_
      refine (@ih below [] (List.forall_mem_nil _) (some node)).bind fun tail tail' later => .pure ?_
      exact List.rel_append (List.rel_append alike (forall₂_toList single)) later

theorem blocks_alike :
    Slugged.Agrees (List.Forall₂ DocNode.WrittenAlike) (blocks (nodes.map (reading true)))
      (blocks (nodes.map (reading false))) := @blocksFrom_alike _ nodes each [] (List.forall_mem_nil _) none

theorem eachBlock_alike :
    Slugged.Agrees (List.Forall₂ DocNode.WrittenAlike) (eachBlock (nodes.map (reading true)))
      (eachBlock (nodes.map (reading false))) := by
  induction nodes with
  | nil => exact .pure .nil
  | cons node rest ih =>
    obtain ⟨here, below⟩ := List.forall_mem_cons.1 each
    rw [List.map_cons, List.map_cons, eachBlock, eachBlock]
    refine here.block.bind fun block block' single => (ih below).bind fun tail tail' later => .pure ?_
    exact List.rel_append (forall₂_toList single) later

theorem listItems_alike :
    Slugged.Agrees (List.Forall₂ DocNode.WrittenAlike) (listItems (nodes.map (reading true)))
      (listItems (nodes.map (reading false))) := by
  induction nodes with
  | nil => exact .pure .nil
  | cons node rest ih =>
    obtain ⟨here, below⟩ := List.forall_mem_cons.1 each
    rw [List.map_cons, List.map_cons, listItems, listItems]
    refine Slugged.Agrees.bind ?_ fun first first' alike => (ih below).bind fun tail tail' later =>
      .pure (List.rel_append alike later)
    rw [listItem, listItem, Node.reading_node, Node.reading_node]
    split
    · exact here.block.bind fun block block' single => .pure (forall₂_toList single)
    · split
      · exact .pure .nil
      · have content := blocks_alike (List.forall_mem_singleton.2 here)
        exact content.bind fun docs others alike => .pure (.cons (.listItem alike) .nil)

theorem slots_alike :
    Slugged.Agrees (List.Forall₂ DocNode.WrittenAlike) (slots (nodes.map (reading true)))
      (slots (nodes.map (reading false))) := by
  have named : ∀ emoji, (nodes.map (reading emoji)).filter fillsSlot =
      (nodes.filter Node.fillsSlot).map (reading emoji) := by
    intro emoji
    rw [List.filter_map, Node.fillsSlot_comp_reading]
  have bare : ∀ emoji, (nodes.map (reading emoji)).filter (!fillsSlot ·) =
      (nodes.filter (!Node.fillsSlot ·)).map (reading emoji) := by
    intro emoji
    rw [List.filter_map, ← @Node.fillsSlot_comp_reading emoji]
    rfl
  have place : ∀ emoji, ((nodes.map (reading emoji)).takeWhile fillsSlot).length =
      (nodes.takeWhile Node.fillsSlot).length := by
    intro emoji
    rw [List.takeWhile_map, Node.fillsSlot_comp_reading, List.length_map]
  simp only [slots, named, bare, place]
  refine (eachBlock_alike fun node member => each node (List.mem_of_mem_filter member)).bind
    fun docs others alike => ?_
  simp only [List.isEmpty_map]
  split
  · exact .pure alike
  · refine (blocks_alike fun node member => each node (List.mem_of_mem_filter member)).bind
      fun content content' inside => .pure ?_
    refine List.rel_append (List.forall₂_take _ alike) (.cons (.slot inside "default" [] true) ?_)
    exact List.forall₂_drop _ alike

omit [Surroundings] each in
theorem codeText_wellMarked {attrs : Attrs} (map : attrs.wellFormed = true) {content : String} {marks : List Mark}
    (valid : marks.all Mark.wellFormed = true) :
    ∀ doc ∈ codeText attrs content marks, doc.isWellMarked = true := by
  intro doc member
  rw [codeText] at member
  split at member
  · cases member
  · rw [List.mem_singleton] at member
    rw [member, DocNode.isWellMarked, DocNode.marks, Mark.compose, List.all_cons]
    refine Bool.and_eq_true_iff.2 ⟨?_, valid⟩
    cases found : attrs.get? "language" with
    | none => rfl
    | some language =>
      have value := (Attrs.wellFormed_iff.1 map).2 _ (Value.mem_of_lookup found)
      exact Attrs.wellFormed_cons_iff.2 ⟨rfl, value, rfl⟩

theorem linkNode_alike {attrs : Attrs} {marks : List Mark} (valid : marks.all Mark.wellFormed = true) :
    Slugged.Agrees DocNode.LinesAlike
      (do return [← linkNode attrs (nodes.map (reading true)) marks])
      (do return [← linkNode attrs (nodes.map (reading false)) marks]) := by
  simp only [linkNode, bind_assoc, pure_bind]
  refine (line_alike each).bind fun docs others alike => .pure (.single valid rfl rfl ?_)
  simp only [DocNode.writing_inline, Writing.inlineOf, DocNode.children, alike.line]

theorem marked_alike (kind : MarkKind) {attrs : Attrs} (map : attrs.wellFormed = true) {marks : List Mark}
    (valid : marks.all Mark.wellFormed = true) :
    Slugged.Agrees DocNode.LinesAlike (marked kind attrs (nodes.map (reading true)) marks)
      (marked kind attrs (nodes.map (reading false)) marks) := by
  have format : ∀ (kind : MarkKind) (attrs : Attrs), attrs.wellFormed = true →
      Slugged.Agrees DocNode.LinesAlike (inlines (Mark.compose marks ⟨kind, attrs⟩) (nodes.map (reading true)))
        (inlines (Mark.compose marks ⟨kind, attrs⟩) (nodes.map (reading false))) := by
    intro kind attrs map
    refine inlines_alike each ?_
    rw [Mark.compose, List.all_cons, Mark.wellFormed, map, valid]
    rfl
  cases kind with
  | code =>
    simp only [marked, Node.map_node_map_reading]
    exact .pure (.refl (codeText_wellMarked map valid))
  | link =>
    simp only [marked, Node.map_node_map_reading]
    split
    · exact format .link _ (LinkPolicy.editorAttrs_wellFormed map)
    · exact linkNode_alike each valid
  | bold => exact format .bold attrs map
  | italic => exact format .italic attrs map
  | strike => exact format .strike attrs map

/-- What an element that belongs inside a line is read as there is written alike. -/
theorem inlineElement_alike (tag : String) {attrs : Attrs} (map : attrs.wellFormed = true) {marks : List Mark}
    (valid : marks.all Mark.wellFormed = true) :
    Slugged.Agrees DocNode.LinesAlike (inlineElement tag attrs (nodes.map (reading true)) marks)
      (inlineElement tag attrs (nodes.map (reading false)) marks) := by
  have leaf : ∀ doc : DocNode, doc.marks = marks → Slugged.Agrees DocNode.LinesAlike (pure [doc]) (pure [doc]) :=
    fun doc same => .pure (.single valid same same rfl)
  have around : ∀ doc : List DocNode → DocNode, (∀ docs, (doc docs).marks = marks) →
      (∀ docs others, DocNode.LinesAlike docs others → (doc docs).writing.inline = (doc others).writing.inline) →
      Slugged.Agrees DocNode.LinesAlike (do return [doc (← line (nodes.map (reading true)))])
        (do return [doc (← line (nodes.map (reading false)))]) := by
    intro doc same written
    refine (line_alike each).bind fun docs others alike => .pure ?_
    exact .single valid (same docs) (same others) (written docs others alike)
  simp only [inlineElement]
  cases TagKind.ofTag tag with
  | mark kind => exact marked_alike each kind map valid
  | lineBreak => exact leaf _ rfl
  | image => exact leaf _ rfl
  | video => exact leaf _ rfl
  | binding => exact leaf _ rfl
  | span =>
    refine around (.spanStyle _ _ _ · marks) (fun _ => rfl) fun docs others alike => ?_
    simp only [DocNode.writing_inline, Writing.inlineOf, DocNode.children, alike.line]
  | component | template | html =>
    refine around (.inlineElement tag attrs · marks) (fun _ => rfl) fun docs others alike => ?_
    simp only [DocNode.writing_inline, Writing.inlineOf, DocNode.children, alike.line]
  | _ => exact .pure .nil

theorem blockElement_alike (tag : String) {attrs : Attrs} (map : attrs.wellFormed = true) :
    Slugged.Agrees (Option.Rel DocNode.WrittenAlike) (blockElement tag attrs (nodes.map (reading true)))
      (blockElement tag attrs (nodes.map (reading false))) := by
  have leaf : ∀ doc : DocNode, doc.marks = [] →
      Slugged.Agrees (Option.Rel DocNode.WrittenAlike) (pure (some doc)) (pure (some doc)) :=
    fun doc unmarked => .pure (.some (.refl unmarked))
  have inline : Slugged.Agrees (Option.Rel DocNode.WrittenAlike)
      (do return some (.paragraph true (joinTexts (← inlineElement tag attrs (nodes.map (reading true)) []))))
      (do return some (.paragraph true (joinTexts (← inlineElement tag attrs (nodes.map (reading false)) [])))) :=
    (inlineElement_alike each tag map rfl).bind fun docs others alike =>
      .pure (.some (.paragraph true alike.joinTexts))
  simp only [blockElement, Node.map_node_map_reading]
  cases TagKind.ofTag tag with
  | paragraph => exact (line_alike each).bind fun docs others alike => .pure (.some (.paragraph false alike))
  | heading level =>
    refine (Slugged.Agrees.refl _).bind fun id id' same => ?_
    subst same
    exact (line_alike each).bind fun docs others alike => .pure (.some (.heading level id alike))
  | bulletList => exact (listItems_alike each).bind fun docs others alike => .pure (.some (.bulletList alike))
  | orderedList => exact (listItems_alike each).bind fun docs others alike => .pure (.some (.orderedList alike _))
  | listItem => exact (blocks_alike each).bind fun docs others alike => .pure (.some (.listItem alike))
  | blockquote => exact (blocks_alike each).bind fun docs others alike => .pure (.some (.blockquote alike))
  | template =>
    simp only [slot, bind_assoc, pure_bind]
    exact (blocks_alike each).bind fun docs others alike => .pure (.some (.slot alike _ _ false))
  | component => exact (slots_alike each).bind fun docs others alike => .pure (.some (.element alike tag attrs))
  | horizontalRule => exact leaf _ rfl
  | codeBlock => exact leaf _ rfl
  | html => exact leaf _ rfl
  | style => exact .pure .none
  | lineBreak | image | video | span | binding | mark kind => exact inline

end Reading

namespace Node

theorem readsAlike_element [Surroundings] {tag : String} {attrs : Attrs} (map : attrs.wellFormed = true)
    {children : List Node}
    (each : ∀ child ∈ children, child.ReadsAlike) : (element tag attrs children).ReadsAlike := by
  have block := Reading.blockElement_alike each tag map
  refine ⟨?_, fun marks valid => ?_⟩
  · rw [block_element, block_element]
    exact block
  · rw [reading_element, reading_element, Reading.ofElement, Reading.ofElement]
    by_cases outside : Reading.isBlockTag tag = true
    · simp only [outside, if_true]
      refine block.bind fun doc other alike => .pure ?_
      cases alike with
      | none => exact .nil
      | some alike => exact alike.linesAlike
    · simp only [outside, Bool.false_eq_true, if_false]
      exact Reading.inlineElement_alike each tag map valid

theorem readsAlike [Surroundings] {node : Node} (valid : node.wellFormed = true) : node.ReadsAlike := by
  induction node using induction with
  | text content =>
    refine ⟨?_, fun marks valid => ?_⟩
    · rw [reading, reading]
      exact .pure (.some (.refl rfl))
    · rw [reading, reading]
      exact .pure (DocNode.textNodes_alike content valid)
  | comment content =>
    have alike : DocNode.WrittenAlike (.comment content) (.comment content) := .refl rfl
    refine ⟨?_, fun marks valid => ?_⟩
    · rw [reading, reading]
      exact .pure (.some alike)
    · rw [reading, reading]
      exact .pure alike.linesAlike
  | element tag attrs children ih =>
    obtain ⟨map, below⟩ := wellFormed_element_iff.1 valid
    exact readsAlike_element map fun child member => ih child member (below child member)

end Node

namespace Tree

/-- Whether shortcodes are replaced in the editor does not show in what is written back. -/
theorem throughEditor_emoji [Surroundings] (tree : Tree) (valid : Node.allWellFormed tree.nodes = true) :
    tree.throughEditor true = tree.throughEditor false := by
  have each : ∀ node ∈ tree.nodes, node.ReadsAlike := fun node member =>
    Node.readsAlike (Node.allWellFormed_iff.1 valid node member)
  obtain ⟨docs, _⟩ := Reading.blocks_alike each .empty
  obtain ⟨data, error, first⟩ := Doc.frontmatterNode_eq tree
  rw [throughEditor, throughEditor, Doc.ofTree_eq, Doc.ofTree_eq]
  refine Doc.toTree_congr ?_ (by rw [first]; rfl)
  rw [Doc.blocks_frontmatterNode, Doc.blocks_frontmatterNode, DocNode.WrittenAlike.blocks docs]

/-- Shortcodes across texts that stand side by side, in formatting, in a heading and in a slot. -/
theorem throughEditor_emoji_page :
    letI : Surroundings := .platform
    let page : Tree := ⟨[.text "", .text ":ta", .text "da: :tada:", .element "strong" [] [.text ":tada::x:"],
      .element "h2" [] [.text "Go :rocket:"], .element "card" [] [.text ":tada:", .element "p" [] []]],
      .str "x", []⟩
    Node.allWellFormed page.nodes = true ∧ page.throughEditor true = page.throughEditor false :=
  ⟨by decide, @throughEditor_emoji .platform _ (by decide)⟩

end Tree

end ComponentMarkdown
