import ComponentMarkdown.Proofs.Doc.Schema

namespace ComponentMarkdown

namespace Node

/-- Whether the editor looks into the elements of a tag for nothing but their text, or not at all. -/
def hidesContent (tag : String) : Bool :=
  match TagKind.ofTag tag with
  | .mark .code | .codeBlock | .lineBreak | .horizontalRule | .image | .video | .binding | .style | .html => true
  | _ => false

mutual

/-- A node and what the editor reads in it, in document order. -/
def readInside : Node → List Node
  | .element tag attrs children =>
    .element tag attrs children :: if hidesContent tag then [] else readInsideOf children
  | node => [node]

def readInsideOf : List Node → List Node
  | [] => []
  | node :: rest => node.readInside ++ readInsideOf rest

end

theorem readInsideOf_eq (nodes : List Node) : readInsideOf nodes = nodes.flatMap readInside := by
  induction nodes with
  | nil => rw [readInsideOf, List.flatMap_nil]
  | cons node rest ih => rw [readInsideOf, ih, List.flatMap_cons]

theorem mem_readInside_element {tag : String} {attrs : Attrs} {children : List Node} {part : Node}
    (inside : part ∈ (element tag attrs children).readInside) : part = element tag attrs children ∨
      hidesContent tag = false ∧ ∃ child ∈ children, part ∈ child.readInside := by
  rw [readInside] at inside
  refine (List.mem_cons.1 inside).imp_right fun below => ?_
  split at below
  · cases below
  · rename_i shown
    rw [readInsideOf_eq] at below
    exact ⟨by simpa using shown, List.mem_flatMap.1 below⟩

/-- What is in an element that is read in a node has well-formed attributes if the node has. -/
theorem wellFormed_of_readInside {node : Node} (valid : node.wellFormed = true) {tag : String} {attrs : Attrs}
    {content : List Node} (read : element tag attrs content ∈ node.readInside) : allWellFormed content = true := by
  induction node using induction with
  | text | comment =>
    rw [readInside] at read
    · cases List.mem_singleton.1 read
    · nofun
  | element tag' attrs' children ih =>
    have below := (wellFormed_element_iff.1 valid).2
    rcases mem_readInside_element read with same | ⟨_, child, member, inside⟩
    · rw [(element.inj same).2.2]
      exact allWellFormed_iff.2 below
    · exact ih child member (below child member) inside

/-- Somewhere in the nodes there is a paragraph with a content of a kind. -/
def HoldParagraph (holds : List Node → Prop) (nodes : List Node) : Prop :=
  ∃ content, element "p" [] content ∈ nodes.flatMap inOrder ∧ holds content

namespace HoldParagraph

variable {holds : List Node → Prop} {nodes more : List Node}

theorem append_left (first : HoldParagraph holds nodes) (more : List Node) :
    HoldParagraph holds (nodes ++ more) := by
  obtain ⟨content, member, kind⟩ := first
  rw [HoldParagraph, List.flatMap_append]
  exact ⟨content, List.mem_append_left _ member, kind⟩

theorem append_right (second : HoldParagraph holds more) (nodes : List Node) :
    HoldParagraph holds (nodes ++ more) := by
  obtain ⟨content, member, kind⟩ := second
  rw [HoldParagraph, List.flatMap_append]
  exact ⟨content, List.mem_append_right _ member, kind⟩

theorem around (inside : HoldParagraph holds nodes) (tag : String) (attrs : Attrs) :
    HoldParagraph holds [element tag attrs nodes] := by
  obtain ⟨content, member, kind⟩ := inside
  refine ⟨content, ?_, kind⟩
  rw [List.flatMap_singleton, inOrder_element]
  exact List.mem_cons_of_mem _ member

theorem here {content : List Node} (kind : holds content) : HoldParagraph holds [element "p" [] content] := by
  refine ⟨content, ?_, kind⟩
  rw [List.flatMap_singleton, inOrder_element]
  exact List.mem_cons_self

/-- Formatting is no paragraph, so folding marks into elements neither makes nor removes one. -/
theorem line [Surroundings] {items : List MarkedNode} (inside : HoldParagraph holds (items.map MarkedNode.node)) :
    HoldParagraph holds (joinSplitMarks (MarkedNode.nest (MarkedNode.coalesce items))) := by
  have law : SeesThroughFormatting fun node => node.inOrder.filter Writer.isParagraph := by
    refine ⟨fun content next => ?_, fun kind attrs children => ?_⟩
    · simp [inOrder_text, Writer.isParagraph, tag?]
    · have other : Writer.isParagraph (element kind.tag attrs children) = false := by cases kind <;> rfl
      rw [inOrder_element, List.filter_cons_of_neg (by simp [other]), List.filter_flatMap]
  have kept := MarkedNode.flatMap_line law items
  rw [← List.filter_flatMap, ← List.filter_flatMap] at kept
  obtain ⟨content, member, kind⟩ := inside
  have found := List.mem_filter_of_mem member (p := Writer.isParagraph) rfl
  rw [← kept] at found
  exact ⟨content, List.mem_of_mem_filter found, kind⟩

end HoldParagraph

end Node

namespace DocNode

open Node (HoldParagraph)

variable {holds : List Node → Prop}

/-- A node that is written with a paragraph in it. -/
structure Writes [Surroundings] (holds : List Node → Prop) (doc : DocNode) : Prop where
  whole (content : String) (marks : List Mark) : doc ≠ text content marks
  inline : Slugged.Gives (fun items => HoldParagraph holds (items.map MarkedNode.node)) doc.writing.inline
  block : doc.isInline = false → ∀ followsInline,
    Slugged.Gives (HoldParagraph holds) (doc.writing.block followsInline)

section Lists

variable [Surroundings] {docs : List DocNode} {doc : DocNode} (member : doc ∈ docs) (writes : doc.Writes holds)

include member writes

theorem marked_writes : Slugged.Gives (fun items => HoldParagraph holds (items.map MarkedNode.node))
    (Writing.marked (docs.map writing)) := by
  induction docs with
  | nil => cases member
  | cons first rest ih =>
    rw [List.map_cons, Writing.marked]
    rcases List.mem_cons.1 member with rfl | later
    · refine writes.inline.bind fun items found => (Slugged.Gives.any _).bind fun tail _ => .pure ?_
      rw [List.map_append]
      exact found.append_left _
    · refine (Slugged.Gives.any _).bind fun items _ => (ih later).bind fun tail found => .pure ?_
      rw [List.map_append]
      exact found.append_right _

theorem line_writes : Slugged.Gives (HoldParagraph holds) (Writing.line (docs.map writing)) :=
  (marked_writes member writes).bind fun _ found => .pure found.line

end Lists

/-- What is done has a paragraph, or what waits to be written as a line or is left will have one. -/
theorem blocksFrom_writes [Surroundings] {done : List Node} {waiting docs : List DocNode}
    (found : HoldParagraph holds done ∨ (∃ doc ∈ waiting, doc.Writes holds) ∨ ∃ doc ∈ docs, doc.Writes holds) :
    Slugged.Gives (HoldParagraph holds) (Writing.blocksFrom done (waiting.map writing) (docs.map writing)) := by
  have withLine : ∀ {done : List Node} {waiting : List DocNode},
      HoldParagraph holds done ∨ (∃ doc ∈ waiting, doc.Writes holds) →
      Slugged.Gives (fun content => HoldParagraph holds (done ++ content))
        (Writing.line (waiting.map writing)) := by
    rintro done waiting (before | ⟨doc, member, writes⟩)
    · exact (Slugged.Gives.any _).weaken fun content _ => before.append_left content
    · exact (line_writes member writes).weaken fun content inside => inside.append_right done
  induction docs generalizing done waiting with
  | nil =>
    rw [List.map_nil, Writing.blocksFrom]
    refine (withLine ?_).bind fun content inside => .pure inside
    rcases found with before | wait | ⟨doc, member, _⟩
    · exact Or.inl before
    · exact Or.inr wait
    · cases member
  | cons doc rest ih =>
    rw [List.map_cons, Writing.blocksFrom, writing_node]
    split
    · have longer : HoldParagraph holds done ∨ (∃ other ∈ waiting ++ [doc], other.Writes holds) ∨
          ∃ other ∈ rest, other.Writes holds := by
        rcases found with before | ⟨other, member, writes⟩ | ⟨other, member, writes⟩
        · exact Or.inl before
        · exact Or.inr (Or.inl ⟨other, List.mem_append_left _ member, writes⟩)
        · rcases List.mem_cons.1 member with rfl | later
          · exact Or.inr (Or.inl ⟨other, List.mem_append_right _ List.mem_cons_self, writes⟩)
          · exact Or.inr (Or.inr ⟨other, later, writes⟩)
      have run := ih longer
      rwa [List.map_append, List.map_singleton] at run
    · rename_i outside
      rw [Bool.not_eq_true] at outside
      by_cases front : HoldParagraph holds done ∨ ∃ other ∈ waiting, other.Writes holds
      · refine (withLine front).bind fun content inside => (Slugged.Gives.any _).bind fun nodes _ => ?_
        exact @ih (done ++ content ++ nodes) [] (Or.inl (inside.append_left nodes))
      · obtain ⟨other, member, writes⟩ : ∃ other ∈ doc :: rest, other.Writes holds :=
          (found.imp_right fun wait => wait.resolve_left fun wait => front (Or.inr wait)).resolve_left
            fun before => front (Or.inl before)
        refine (Slugged.Gives.any _).bind fun content _ => ?_
        rcases List.mem_cons.1 member with rfl | later
        · refine (writes.block outside _).bind fun nodes inside => ?_
          exact @ih (done ++ content ++ nodes) [] (Or.inl (inside.append_right _))
        · refine (Slugged.Gives.any _).bind fun nodes _ => ?_
          exact @ih (done ++ content ++ nodes) [] (Or.inr (Or.inr ⟨other, later, writes⟩))

theorem blocks_writes [Surroundings] {docs : List DocNode} {doc : DocNode} (member : doc ∈ docs)
    (writes : doc.Writes holds) : Slugged.Gives (HoldParagraph holds) (Writing.blocks (docs.map writing)) :=
  @blocksFrom_writes holds _ [] [] docs (Or.inr (Or.inr ⟨doc, member, writes⟩))

/-- A node that is written among blocks as it is in a line. -/
theorem Writes.of_block [Surroundings] {doc : DocNode} (whole : ∀ content marks, doc ≠ text content marks)
    (same : Writing.inlineOf doc (doc.children.map writing) = do
      return (← Writing.blockOf doc (doc.children.map writing) false).map (MarkedNode.mk []))
    (block : ∀ followsInline, Slugged.Gives (HoldParagraph holds)
      (Writing.blockOf doc (doc.children.map writing) followsInline)) : doc.Writes holds := by
  refine ⟨whole, ?_, fun _ followsInline => ?_⟩
  · rw [writing_inline, same]
    refine (block false).bind fun nodes found => .pure ?_
    rwa [List.map_map, Function.comp_def, List.map_id']
  · rw [writing_block]
    exact block followsInline

/-- The paragraph itself. -/
theorem Writes.paragraph [Surroundings] {docs : List DocNode}
    (kind : Slugged.Gives holds (Writing.line (docs.map writing))) :
    (paragraph false docs).Writes holds :=
  .of_block nofun rfl fun _ => kind.bind fun _ found => .pure (.here found)

/-- Whether the children of a node are written. -/
def holdsNodes : DocNode → Bool
  | codeBlock .. | unknown .. => false
  | _ => true

/-- A node that is written around what is in it. -/
theorem Writes.around [Surroundings] {doc child : DocNode} (shown : doc.holdsNodes = true)
    (member : child ∈ doc.children) (writes : child.Writes holds) : doc.Writes holds := by
  have line := line_writes member writes
  have blocks := blocks_writes member writes
  have inline : ∀ {marks : List Mark} {tag : String} {attrs : Attrs}, doc.isInline = true →
      (∀ content marks, doc ≠ text content marks) →
      Writing.inlineOf doc (doc.children.map writing) = (do
        return [⟨marks, .element tag attrs (← Writing.line (doc.children.map writing))⟩]) → doc.Writes holds := by
    intro marks tag attrs inside whole same
    refine ⟨whole, ?_, fun outside => by rw [inside] at outside; cases outside⟩
    rw [writing_inline, same]
    exact line.bind fun content found => .pure (found.around tag attrs)
  cases doc with
  | paragraph synthetic children =>
    refine .of_block nofun rfl fun followsInline => line.bind fun content found => .pure ?_
    split
    · exact found
    · exact found.around _ _
  | heading level id children =>
    exact .of_block nofun rfl fun followsInline => line.bind fun content found =>
      (Slugged.Gives.any _).bind fun anchor _ => .pure (found.around _ _)
  | bulletList | orderedList | listItem | blockquote | element =>
    exact .of_block nofun rfl fun followsInline => blocks.bind fun content found => .pure (found.around _ _)
  | slot name props synthetic children =>
    refine .of_block nofun rfl fun followsInline => blocks.bind fun content found => ?_
    split
    · exact .pure found
    · exact .pure (found.around _ _)
  | link | spanStyle | inlineElement => exact inline rfl nofun rfl
  | codeBlock | unknown => cases shown
  | _ => cases member

/-- One of the nodes is written with a paragraph in it. -/
def SomeWrites [Surroundings] (holds : List Node → Prop) (docs : List DocNode) : Prop := ∃ doc ∈ docs,
    doc.Writes holds

theorem SomeWrites.append_left [Surroundings] {docs : List DocNode} (first : SomeWrites holds docs)
    (more : List DocNode) :
    SomeWrites holds (docs ++ more) := first.imp fun _ found => ⟨List.mem_append_left _ found.1, found.2⟩

theorem SomeWrites.append_right [Surroundings] {more : List DocNode} (second : SomeWrites holds more)
    (docs : List DocNode) :
    SomeWrites holds (docs ++ more) := second.imp fun _ found => ⟨List.mem_append_right _ found.1, found.2⟩

theorem SomeWrites.single [Surroundings] {doc : DocNode} (writes : doc.Writes holds) : SomeWrites holds [doc] :=
  ⟨doc, List.mem_cons_self, writes⟩

/-- Around a list of which one node is written with a paragraph. -/
theorem SomeWrites.around [Surroundings] {docs : List DocNode} (some : SomeWrites holds docs) {doc : DocNode}
    (inside : doc.children = docs) (shown : doc.holdsNodes = true) : doc.Writes holds := by
  obtain ⟨child, member, writes⟩ := some
  exact .around shown (inside ▸ member) writes

/-- A node if it is no text. -/
def besideText : DocNode → List DocNode
  | text .. => []
  | node => [node]

/-- Joining texts leaves everything else. -/
theorem SomeWrites.joinTexts [Surroundings] {docs : List DocNode} (some : SomeWrites holds docs) :
    SomeWrites holds (Reading.joinTexts docs) := by
  obtain ⟨doc, member, writes⟩ := some
  have kept : (Reading.joinTexts docs).flatMap besideText = docs.flatMap besideText := by
    rw [joinTexts_eq]
    refine flatMap_mergeNeighbours (fun x y z merged => ?_) docs
    obtain ⟨_, _, _, _, rfl, rfl, _, rfl⟩ := joined?_eq_some merged
    rfl
  have here : doc ∈ docs.flatMap besideText := by
    refine List.mem_flatMap.2 ⟨doc, member, ?_⟩
    cases doc with
    | text content marks => exact absurd rfl (writes.whole content marks)
    | _ => exact List.mem_cons_self
  rw [← kept] at here
  obtain ⟨other, member', same⟩ := List.mem_flatMap.1 here
  refine ⟨doc, ?_, writes⟩
  cases other with
  | text => cases same
  | _ => exact List.mem_singleton.1 same ▸ member'

end DocNode

namespace Node

/-- Wherever a node is read, it is read as something that is written with a paragraph in it. -/
structure Shows [Surroundings] (emoji : Bool) (holds : List Node → Prop) (node : Node) : Prop where
  solid : Reading.isBlankText node = false
  inline (marks : List Mark) : Slugged.Gives (DocNode.SomeWrites holds) ((node.reading emoji).inline marks)
  block : Slugged.Gives (fun doc => DocNode.SomeWrites holds doc.toList) (node.reading emoji).block

end Node

namespace Reading

open DocNode (SomeWrites)
open Node (Shows reading)

variable {emoji : Bool} {holds : List Node → Prop}

section Lists

variable [Surroundings] {nodes : List Node} {node : Node} (member : node ∈ nodes) (shows : node.Shows emoji holds)

include member shows

theorem inlines_show (marks : List Mark) :
    Slugged.Gives (SomeWrites holds) (inlines marks (nodes.map (reading emoji))) := by
  induction nodes with
  | nil => cases member
  | cons first rest ih =>
    rw [List.map_cons, inlines]
    rcases List.mem_cons.1 member with rfl | later
    · exact (shows.inline marks).bind fun docs found => (Slugged.Gives.any _).bind fun tail _ =>
        .pure (found.append_left tail)
    · exact (Slugged.Gives.any _).bind fun docs _ => (ih later).bind fun tail found =>
        .pure (found.append_right docs)

theorem line_shows : Slugged.Gives (SomeWrites holds) (line (nodes.map (reading emoji))) :=
  (inlines_show member shows []).bind fun _ found => .pure found.joinTexts

theorem paragraph_shows : Slugged.Gives (SomeWrites holds) (paragraph (nodes.map (reading emoji))) := by
  have solid : ¬ (nodes.map (reading emoji)).all (fun item => isBlankText item.node) = true := by
    intro blank
    have here := List.all_eq_true.1 blank _ (List.mem_map_of_mem member)
    rw [Node.reading_node, shows.solid] at here
    cases here
  rw [paragraph, if_neg solid]
  exact (line_shows member shows).bind fun docs found => .pure (.single (found.around rfl rfl))

omit member shows in
/-- What waits in front or what is left has a paragraph. -/
theorem blocksFrom_show {waiting : List Node} {before : Option Node}
    (some : (∃ node ∈ waiting, node.Shows emoji holds) ∨ ∃ node ∈ nodes, node.Shows emoji holds) :
    Slugged.Gives (SomeWrites holds)
      (blocksFrom (waiting.map (reading emoji)) before (nodes.map (reading emoji))) := by
  induction nodes generalizing waiting before with
  | nil =>
    rw [List.map_nil, blocksFrom]
    obtain ⟨node, member, shows⟩ := some.resolve_right (by simp)
    exact paragraph_shows member shows
  | cons first rest ih =>
    rw [List.map_cons, blocksFrom, Node.reading_node]
    split
    · have longer : (∃ node ∈ waiting ++ [first], node.Shows emoji holds) ∨ ∃ node ∈ rest,
        node.Shows emoji holds := by
        rcases some with ⟨node, member, shows⟩ | ⟨node, member, shows⟩
        · exact Or.inl ⟨node, List.mem_append_left _ member, shows⟩
        · rcases List.mem_cons.1 member with rfl | later
          · exact Or.inl ⟨node, List.mem_append_right _ List.mem_cons_self, shows⟩
          · exact Or.inr ⟨node, later, shows⟩
      have run := @ih (waiting ++ [first]) (.some first) longer
      rwa [List.map_append, List.map_singleton] at run
    · rcases some with ⟨node, member, shows⟩ | ⟨node, member, shows⟩
      · refine (paragraph_shows member shows).bind fun docs found => (Slugged.Gives.any _).bind fun block _ => ?_
        exact (Slugged.Gives.any _).bind fun tail _ => .pure ((found.append_left _).append_left _)
      · refine (Slugged.Gives.any _).bind fun docs _ => ?_
        rcases List.mem_cons.1 member with rfl | later
        · refine shows.block.bind fun block found => (Slugged.Gives.any _).bind fun tail _ => .pure ?_
          exact (found.append_right docs).append_left tail
        · refine (Slugged.Gives.any _).bind fun block _ => ?_
          exact (@ih [] (.some first) (Or.inr ⟨node, later, shows⟩)).bind fun tail found =>
            .pure (found.append_right _)

theorem blocks_show : Slugged.Gives (SomeWrites holds) (blocks (nodes.map (reading emoji))) :=
  @blocksFrom_show emoji holds _ nodes [] none (Or.inr ⟨node, member, shows⟩)

theorem listItems_show : Slugged.Gives (SomeWrites holds) (listItems (nodes.map (reading emoji))) := by
  induction nodes with
  | nil => cases member
  | cons first rest ih =>
    rw [List.map_cons, listItems]
    rcases List.mem_cons.1 member with rfl | later
    · have item : Slugged.Gives (SomeWrites holds) (listItem (node.reading emoji)) := by
        rw [listItem, Node.reading_node, shows.solid]
        split
        · exact shows.block.bind fun block found => .pure found
        · have content := blocks_show (List.mem_singleton.2 rfl) shows
          exact content.bind fun docs found => .pure (.single (found.around rfl rfl))
      exact item.bind fun docs found => (Slugged.Gives.any _).bind fun tail _ => .pure (found.append_left tail)
    · exact (Slugged.Gives.any _).bind fun docs _ => (ih later).bind fun tail found =>
        .pure (found.append_right docs)

theorem eachBlock_shows : Slugged.Gives (SomeWrites holds) (eachBlock (nodes.map (reading emoji))) := by
  induction nodes with
  | nil => cases member
  | cons first rest ih =>
    rw [List.map_cons, eachBlock]
    rcases List.mem_cons.1 member with rfl | later
    · exact shows.block.bind fun block found => (Slugged.Gives.any _).bind fun tail _ =>
        .pure (found.append_left tail)
    · exact (Slugged.Gives.any _).bind fun block _ => (ih later).bind fun tail found => .pure (found.append_right _)

/-- A child of a component is read in its slot, or in the one that is made for what stands outside of slots. -/
theorem slots_show : Slugged.Gives (SomeWrites holds) (slots (nodes.map (reading emoji))) := by
  have named : (nodes.map (reading emoji)).filter fillsSlot =
    (nodes.filter Node.fillsSlot).map (reading emoji) := by
    rw [List.filter_map, Node.fillsSlot_comp_reading]
  have bare : (nodes.map (reading emoji)).filter (!fillsSlot ·) =
      (nodes.filter (!Node.fillsSlot ·)).map (reading emoji) := by
    rw [List.filter_map, ← @Node.fillsSlot_comp_reading emoji]
    rfl
  simp only [slots, named, bare]
  generalize ((nodes.map (reading emoji)).takeWhile fillsSlot).length = place
  cases fills : node.fillsSlot with
  | true =>
    have inside : node ∈ nodes.filter Node.fillsSlot := List.mem_filter.2 ⟨member, fills⟩
    refine (eachBlock_shows inside shows).bind fun docs found => ?_
    split
    · exact .pure found
    · refine (Slugged.Gives.any _).bind fun content _ => .pure ?_
      obtain ⟨doc, listed, writes⟩ := found
      rw [← List.take_append_drop place docs] at listed
      refine ⟨doc, ?_, writes⟩
      rcases List.mem_append.1 listed with front | back
      · exact List.mem_append_left _ front
      · exact List.mem_append_right _ (List.mem_cons_of_mem _ back)
  | false =>
    have inside : node ∈ nodes.filter (!Node.fillsSlot ·) := List.mem_filter.2 ⟨member, by simp [fills]⟩
    refine (Slugged.Gives.any _).bind fun docs _ => ?_
    split
    · rename_i none
      rw [List.isEmpty_map, List.isEmpty_iff] at none
      rw [none] at inside
      cases inside
    · refine (blocks_show inside shows).bind fun content found => .pure ?_
      exact ⟨_, List.mem_append_right _ List.mem_cons_self, found.around rfl rfl⟩

end Lists

section Element

variable [Surroundings] {tag : String} {attrs : Attrs} {children : List Node} {child : Node}
    (member : child ∈ children)
  (shows : child.Shows emoji holds) (open_ : Node.hidesContent tag = false)

include member shows open_

theorem inlineElement_shows (inside : isBlockTag tag = false) (marks : List Mark) :
    Slugged.Gives (SomeWrites holds) (inlineElement tag attrs (children.map (reading emoji)) marks) := by
  have line := line_shows member shows
  simp only [inlineElement]
  cases meaning : TagKind.ofTag tag with
  | mark kind =>
    cases kind with
    | code => simp [Node.hidesContent, meaning] at open_
    | link =>
      simp only [marked]
      split
      · exact inlines_show member shows _
      · simp only [linkNode, bind_assoc, pure_bind]
        exact line.bind fun docs found => .pure (.single (found.around rfl rfl))
    | bold | italic | strike => exact inlines_show member shows _
  | span | component | template => exact line.bind fun docs found => .pure (.single (found.around rfl rfl))
  | lineBreak | image | video | binding | html | style => simp [Node.hidesContent, meaning] at open_
  | _ => simp [isBlockTag, meaning] at inside

theorem blockElement_shows : Slugged.Gives (fun doc => SomeWrites holds doc.toList)
    (blockElement tag attrs (children.map (reading emoji))) := by
  have line := line_shows member shows
  have blocks := blocks_show member shows
  have items := listItems_show member shows
  have around : ∀ {content : Slugged (List DocNode)} {doc : List DocNode → DocNode},
      Slugged.Gives (SomeWrites holds) content → (∀ docs, (doc docs).children = docs) →
      (∀ docs, (doc docs).holdsNodes = true) →
      Slugged.Gives (fun doc => SomeWrites holds doc.toList) (do return some (doc (← content))) := by
    intro content doc reads inside shown
    exact reads.bind fun docs found => .pure (.single (found.around (inside docs) (shown docs)))
  simp only [blockElement]
  cases meaning : TagKind.ofTag tag with
  | paragraph => exact around line (fun _ => rfl) fun _ => rfl
  | heading level => exact (Slugged.Gives.any _).bind fun id _ => around line (fun _ => rfl) fun _ => rfl
  | bulletList | orderedList => exact around items (fun _ => rfl) fun _ => rfl
  | listItem | blockquote => exact around blocks (fun _ => rfl) fun _ => rfl
  | template =>
    simp only [slot, bind_assoc, pure_bind]
    exact around blocks (fun _ => rfl) fun _ => rfl
  | component => exact around (slots_show member shows) (fun _ => rfl) fun _ => rfl
  | horizontalRule | codeBlock | html | style | lineBreak | image | video | binding =>
    simp [Node.hidesContent, meaning] at open_
  | span | mark kind =>
    have inside : isBlockTag tag = false := by simp [isBlockTag, meaning]
    exact (inlineElement_shows member shows open_ inside []).bind fun docs found =>
      .pure (.single (found.joinTexts.around rfl rfl))

end Element

end Reading

namespace Node

variable {emoji : Bool} {holds : List Node → Prop} {tag : String} {attrs : Attrs} {children : List Node}

/-- An element in both of its readings. -/
theorem shows_element [Surroundings]
    (block : Slugged.Gives (fun doc => DocNode.SomeWrites holds doc.toList)
      (Reading.blockElement tag attrs (children.map (reading emoji))))
    (inline : Reading.isBlockTag tag = false → ∀ marks, Slugged.Gives (DocNode.SomeWrites holds)
      (Reading.inlineElement tag attrs (children.map (reading emoji)) marks)) :
    (element tag attrs children).Shows emoji holds := by
  refine ⟨rfl, fun marks => ?_, ?_⟩
  · rw [reading_element, Reading.ofElement]
    by_cases outside : Reading.isBlockTag tag = true
    · simp only [outside, if_true]
      exact block.bind fun doc found => .pure found
    · simp only [outside, Bool.false_eq_true, if_false]
      exact inline (by simpa using outside) marks
  · rw [block_element]
    exact block

/-- A paragraph shows in everything that it is read in. -/
theorem shows [Surroundings] {content : List Node}
    (kind : Slugged.Gives (fun docs => Slugged.Gives holds (Writing.line (docs.map DocNode.writing)))
      (Reading.line (content.map (reading emoji))))
    {node : Node} (read : element "p" attrs content ∈ node.readInside) : node.Shows emoji holds := by
  induction node using induction with
  | text | comment =>
    rw [readInside] at read
    · cases List.mem_singleton.1 read
    · nofun
  | element tag attrs' children ih =>
    rcases mem_readInside_element read with same | ⟨open_, child, member, inside⟩
    · obtain ⟨rfl, rfl, rfl⟩ := element.inj same
      refine shows_element ?_ nofun
      exact kind.bind fun docs written => .pure (.single (.paragraph written))
    · have below := ih child member inside
      exact shows_element (Reading.blockElement_shows member below open_)
        (Reading.inlineElement_shows member below open_)

end Node

namespace Tree

/-- A paragraph that the editor reads is still there behind it, with the content that its line is written as. -/
theorem holdParagraph_throughEditor [Surroundings] {tree : Tree} {emoji : Bool} {holds : List Node → Prop}
    {attrs : Attrs} {content : List Node} (read : .element "p" attrs content ∈ tree.nodes.flatMap Node.readInside)
    (kind : Slugged.Gives (fun docs => Slugged.Gives holds (Writing.line (docs.map DocNode.writing)))
      (Reading.line (content.map (Node.reading emoji)))) :
    Node.HoldParagraph holds (tree.throughEditor emoji).nodes := by
  obtain ⟨node, member, inside⟩ := List.mem_flatMap.1 read
  obtain ⟨doc, listed, writes⟩ := Reading.blocks_show member (Node.shows kind inside) .empty
  rw [throughEditor, Doc.ofTree_eq, Doc.toTree_nodes, Doc.blocks_frontmatterNode]
  exact DocNode.blocks_writes listed writes .empty

end Tree

end ComponentMarkdown
