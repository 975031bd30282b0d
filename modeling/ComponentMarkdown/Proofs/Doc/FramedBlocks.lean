import ComponentMarkdown.Proofs.Doc.FramedLines
import ComponentMarkdown.Proofs.Doc.Schema

namespace ComponentMarkdown

namespace DocNode

open ComponentMarkdown.Found (IsKept)

variable {found more : List Found} {docs tail : List DocNode}

/-- A block that is written with what was found in the markup it was read from. -/
structure IsFramedBlock [Surroundings] (found : List Found) (doc : DocNode) : Prop where
  outside : doc.isInline = false
  written (followsInline : Bool) : Slugged.Gives (IsKept true found) (doc.writing.block followsInline)

/-- Blocks of which each is written with a part of what was found. -/
def AreFramedBlocks [Surroundings] (found : List Found) (docs : List DocNode) : Prop :=
  ∃ parts : List (List Found), found.Perm parts.flatten ∧ List.Forall₂ IsFramedBlock parts docs

namespace AreFramedBlocks

variable [Surroundings]

theorem nil : AreFramedBlocks [] [] := ⟨[], .refl _, .nil⟩

theorem single {doc : DocNode} (block : IsFramedBlock found doc) : AreFramedBlocks found [doc] :=
  ⟨[found], by simp, .cons block .nil⟩

theorem append (first : AreFramedBlocks found docs) (second : AreFramedBlocks more tail) :
    AreFramedBlocks (found ++ more) (docs ++ tail) := by
  obtain ⟨parts, perm, each⟩ := first
  obtain ⟨parts', perm', each'⟩ := second
  refine ⟨parts ++ parts', ?_, List.rel_append each each'⟩
  rw [List.flatten_append]
  exact perm.append perm'

theorem of_perm (framed : AreFramedBlocks found docs) (perm : more.Perm found) : AreFramedBlocks more docs := by
  obtain ⟨parts, perm', each⟩ := framed
  exact ⟨parts, perm.trans perm', each⟩

/-- A block between the others, of which it does not matter where it is put. -/
theorem insert (framed : AreFramedBlocks found docs) {doc : DocNode} (block : IsFramedBlock more doc)
    (place : Nat) : AreFramedBlocks (found ++ more) (docs.take place ++ doc :: docs.drop place) := by
  obtain ⟨parts, perm, each⟩ := framed
  refine ⟨parts.take place ++ more :: parts.drop place, ?_, ?_⟩
  · have whole : parts.flatten = (parts.take place).flatten ++ (parts.drop place).flatten := by
      rw [← List.flatten_append, List.take_append_drop]
    rw [whole] at perm
    rw [List.flatten_append, List.flatten_cons]
    refine (perm.append_right more).trans ?_
    rw [List.append_assoc]
    exact List.Perm.append_left _ List.perm_append_comm
  · exact List.rel_append (List.forall₂_take place each) (.cons block (List.forall₂_drop place each))

/-- Blocks are written one after the other. -/
theorem written (framed : AreFramedBlocks found docs) :
    Slugged.Gives (IsKept true found) (Writing.blocks (docs.map writing)) := by
  obtain ⟨parts, perm, each⟩ := framed
  -- What is written so far holds what is known, and each block adds its part behind it.
  have run : ∀ (known : List Found) (done : List Node), IsKept true known done →
      Slugged.Gives (IsKept true (known ++ parts.flatten)) (Writing.blocksFrom done [] (docs.map writing)) := by
    clear perm
    induction each with
    | nil =>
      intro known done kept
      rw [List.map_nil, Writing.blocksFrom_nil]
      refine .pure ?_
      rwa [List.flatten_nil, List.append_nil]
    | @cons part doc parts docs block _ ih =>
      intro known done kept
      rw [List.map_cons, Writing.blocksFrom_cons block.outside]
      refine (block.written _).bind fun nodes here => ?_
      have later := ih (known ++ part) (done ++ nodes) (kept.append here)
      rwa [List.append_assoc, ← List.flatten_cons] at later
  have whole := run [] [] .nil
  rw [List.nil_append] at whole
  exact whole.weaken fun nodes kept => kept.of_moved perm

end AreFramedBlocks

section Blocks

variable [Surroundings]

/-- A block that is written as an element around its blocks. -/
theorem IsFramedBlock.around {doc : DocNode} {tag : String} {attrs : Attrs} (outside : doc.isInline = false)
    (framed : AreFramedBlocks found doc.children) (line : Node.holdsLine tag = true)
    (through : ∀ content inside, Found.around true tag attrs content inside = inside)
    (same : ∀ followsInline, Writing.blockOf doc (doc.children.map writing) followsInline = do
      return [.element tag attrs (← Writing.blocks (doc.children.map writing))]) : IsFramedBlock found doc := by
  refine ⟨outside, fun followsInline => ?_⟩
  rw [writing_block, same]
  refine framed.written.bind fun nodes kept => .pure ?_
  have whole : IsKept true (Found.around true tag attrs "" found) [.element tag attrs nodes] :=
    kept.around line "" fun moved written content inside => by rwa [through, through]
  rwa [through] at whole

/-- A line is written in a paragraph or without one. -/
theorem IsFramedBlock.paragraph (synthetic : Bool)
    (content : Slugged.Gives (IsKept true found) (Writing.line (docs.map writing))) :
    IsFramedBlock found (.paragraph synthetic docs) := by
  refine ⟨rfl, fun followsInline => ?_⟩
  rw [writing_block]
  refine content.bind fun nodes kept => .pure ?_
  split
  · exact kept
  · have whole : IsKept true (Found.around true "p" [] "" found) [.element "p" [] nodes] :=
      kept.around rfl "" fun moved written content inside => inside
    exact whole

/-- A node that is written in a line as it is among blocks, as one element that is a block. -/
structure IsBlockInLine (doc : DocNode) : Prop where
  wellMarked : doc.isWellMarked = true
  inline : doc.writing.inline = do return (← doc.writing.block false).map (MarkedNode.mk [])
  block : Slugged.Gives (fun nodes => ∃ tag attrs content, nodes = [Node.element tag attrs content] ∧
    Reading.isBlockTag tag = true) (doc.writing.block false)

theorem IsBlockInLine.of_writing {doc : DocNode} (wellMarked : doc.isWellMarked = true)
    (inline : Writing.inlineOf doc (doc.children.map writing) = do
      return (← Writing.blockOf doc (doc.children.map writing) false).map (MarkedNode.mk []))
    (block : Slugged.Gives (fun nodes => ∃ tag attrs content, nodes = [Node.element tag attrs content] ∧
      Reading.isBlockTag tag = true) (Writing.blockOf doc (doc.children.map writing) false)) :
        doc.IsBlockInLine := by
  refine ⟨wellMarked, ?_, ?_⟩
  · rw [writing_inline, writing_block, inline]
  · rwa [writing_block]

/-- A block in a line holds what it is written with. -/
theorem IsBlockInLine.framed {doc : DocNode} (block : doc.IsBlockInLine) {page : Bool}
    (written : Slugged.Gives (IsKept page found) (doc.writing.block false)) : AreFramed page found [doc] := by
  refine .single block.wellMarked ?_
  rw [block.inline]
  refine (block.block.and written).bind fun nodes both => .pure ?_
  obtain ⟨⟨tag, attrs, content, rfl, outside⟩, moved, line, move, returns, joins⟩ := both
  -- A block is not joined with others, so the line in which it is found is the block.
  have apart : tag ∉ Node.joinableTags := by
    intro joinable
    obtain ⟨kind, rfl⟩ := Node.exists_kind_of_joinable joinable
    cases kind <;> exact absurd outside (by decide)
  obtain ⟨children, rfl, inside⟩ := joins.exists_of_apart apart
  rw [List.flatMap_singleton] at returns
  exact .single rfl (List.forall_mem_nil _) move returns (.element attrs inside)

/-- In a line, a block is found itself. -/
theorem IsBlockInLine.framed_line {doc : DocNode} (block : doc.IsBlockInLine) :
    AreFramed false [⟨.block, []⟩] [doc] := by
  refine block.framed (block.block.weaken fun nodes one => ?_)
  obtain ⟨tag, attrs, content, rfl, outside⟩ := one
  refine ⟨_, _, .refl _, ?_, .refl _⟩
  rw [List.flatMap_singleton, Node.found_element, Found.around_block outside]
  exact .cons ⟨rfl, .nil⟩ .nil

/-- On a page, a block in a line holds what it holds as a block. -/
theorem IsBlockInLine.framed_page {doc : DocNode} (block : doc.IsBlockInLine)
    (framed : AreFramedBlocks found [doc]) : AreFramed true found [doc] := by
  obtain ⟨parts, perm, each⟩ := framed
  cases each with
  | cons one none =>
    cases none
    rw [List.flatten_cons, List.flatten_nil, List.append_nil] at perm
    exact block.framed ((one.written false).weaken fun nodes kept => kept.of_moved perm)

end Blocks

end DocNode

namespace Node

/-- What is found in a node is found again wherever the node stands on a page. -/
structure ComesBackOnPage [Surroundings] (emoji : Bool) (node : Node) : Prop where
  inline : node.ComesBack emoji true
  block : node.isText = false → Slugged.Gives (fun doc => DocNode.AreFramedBlocks (node.found true) doc.toList)
    (node.reading emoji).block

end Node

namespace Reading

open DocNode (AreFramedBlocks IsFramedBlock)
open Node (found reading)

variable {emoji : Bool}

section Lists

variable [Surroundings] {nodes : List Node} (each : ∀ node ∈ nodes, node.ComesBackOnPage emoji)

include each

/-- The line of a synthetic paragraph, whether it is written in one or not. -/
theorem paragraph_framed :
    Slugged.Gives (AreFramedBlocks (nodes.flatMap (found true))) (paragraph (nodes.map (reading emoji))) := by
  rw [paragraph]
  split
  · rename_i blank
    have none : nodes.flatMap (found true) = [] := by
      refine List.flatMap_eq_nil_iff.2 fun node member => ?_
      have text := List.all_eq_true.1 blank _ (List.mem_map_of_mem member)
      rw [Node.reading_node] at text
      cases node with
      | text content => exact by rw [Node.found_text]; rfl
      | _ => cases text
    rw [none]
    exact .pure .nil
  · exact (line_framed fun node member => (each node member).inline).bind fun docs content =>
      .pure (.single (.paragraph true content))

theorem blocksFrom_framed {waiting : List Node} (inFront : ∀ node ∈ waiting, node.ComesBackOnPage emoji)
    (before : Option Node) : Slugged.Gives (AreFramedBlocks ((waiting ++ nodes).flatMap (found true)))
      (blocksFrom (waiting.map (reading emoji)) before (nodes.map (reading emoji))) := by
  induction nodes generalizing waiting before with
  | nil =>
    rw [List.append_nil, List.map_nil, blocksFrom]
    exact paragraph_framed inFront
  | cons node rest ih =>
    obtain ⟨here, below⟩ := List.forall_mem_cons.1 each
    rw [List.map_cons, blocksFrom, Node.reading_node]
    split
    -- An inline node waits for the rest of its line, and a block comes behind the line that it ends.
    · have longer := ih below (List.forall_mem_append.2 ⟨inFront, List.forall_mem_singleton.2 here⟩) (some node)
      rwa [List.map_append, List.map_singleton, List.append_assoc, List.singleton_append] at longer
    · rename_i outside
      rw [Bool.not_eq_true] at outside
      refine (paragraph_framed inFront).bind fun first line => ?_
      refine (here.block (Node.isText_eq_false_of_block outside)).bind fun block single => ?_
      refine (@ih below [] (List.forall_mem_nil _) (some node)).bind fun tail later => .pure ?_
      rw [List.flatMap_append, List.flatMap_cons, ← List.append_assoc]
      exact (line.append single).append later

theorem blocks_framed :
    Slugged.Gives (AreFramedBlocks (nodes.flatMap (found true))) (blocks (nodes.map (reading emoji))) :=
  @blocksFrom_framed emoji _ nodes each [] (List.forall_mem_nil _) none

theorem listItems_framed :
    Slugged.Gives (AreFramedBlocks (nodes.flatMap (found true))) (listItems (nodes.map (reading emoji))) := by
  induction nodes with
  | nil => exact .pure .nil
  | cons node rest ih =>
    obtain ⟨here, below⟩ := List.forall_mem_cons.1 each
    have item : Slugged.Gives (AreFramedBlocks (node.found true)) (listItem (node.reading emoji)) := by
      rw [listItem, Node.reading_node]
      split
      · rename_i tagged
        have element : node.isText = false := by
          cases node with
          | text => cases tagged
          | _ => rfl
        exact (here.block element).bind fun block single => .pure single
      · split
        · rename_i blank
          cases node with
          | text content =>
            rw [Node.found_text]
            exact .pure .nil
          | _ => cases blank
        · refine (blocks_framed (List.forall_mem_singleton.2 here)).bind fun docs content => .pure (.single ?_)
          rw [List.flatMap_singleton] at content
          exact .around rfl content (rfl : Node.holdsLine "li" = true) (fun _ _ => rfl) fun _ => rfl
    rw [List.map_cons, listItems, List.flatMap_cons]
    exact item.bind fun first single => (ih below).bind fun tail later => .pure (single.append later)

theorem eachBlock_framed (slots : ∀ node ∈ nodes, node.fillsSlot = true) :
    Slugged.Gives (AreFramedBlocks (nodes.flatMap (found true))) (eachBlock (nodes.map (reading emoji))) := by
  induction nodes with
  | nil => exact .pure .nil
  | cons node rest ih =>
    obtain ⟨here, below⟩ := List.forall_mem_cons.1 each
    obtain ⟨fills, others⟩ := List.forall_mem_cons.1 slots
    have element : node.isText = false := by
      cases node with
      | text => cases fills
      | _ => rfl
    rw [List.map_cons, eachBlock, List.flatMap_cons]
    exact (here.block element).bind fun block single => (ih below others).bind fun tail later =>
      .pure (single.append later)

/-- The children of a component are in its slots, of which the synthetic one may come before others that were in
front of its content. -/
theorem slots_framed :
    Slugged.Gives (AreFramedBlocks (nodes.flatMap (found true))) (slots (nodes.map (reading emoji))) := by
  have named : (nodes.map (reading emoji)).filter fillsSlot =
    (nodes.filter Node.fillsSlot).map (reading emoji) := by
    rw [List.filter_map, Node.fillsSlot_comp_reading]
  have bare : (nodes.map (reading emoji)).filter (!fillsSlot ·) =
      (nodes.filter (!Node.fillsSlot ·)).map (reading emoji) := by
    rw [List.filter_map, ← @Node.fillsSlot_comp_reading emoji]
    rfl
  have apart : (nodes.flatMap (found true)).Perm ((nodes.filter Node.fillsSlot).flatMap (found true) ++
      (nodes.filter (!Node.fillsSlot ·)).flatMap (found true)) := by
    rw [← List.flatMap_append]
    exact (List.filter_append_perm Node.fillsSlot nodes).symm.flatMap_right _
  simp only [slots, named, bare]
  refine (eachBlock_framed (fun node member => each node (List.mem_of_mem_filter member))
    fun node member => (List.mem_filter.1 member).2).bind fun docs slots => ?_
  split
  · rename_i none
    rw [List.isEmpty_map, List.isEmpty_iff] at none
    rw [none, List.flatMap_nil, List.append_nil] at apart
    exact .pure (slots.of_perm apart)
  · have others : ∀ node ∈ nodes.filter (!Node.fillsSlot ·), node.ComesBackOnPage emoji := fun node member =>
      each node (List.mem_of_mem_filter member)
    refine (blocks_framed others).bind fun content inside => .pure ?_
    have made : IsFramedBlock ((nodes.filter (!Node.fillsSlot ·)).flatMap (found true))
        (.slot "default" [] true content) := by
      refine ⟨rfl, fun followsInline => ?_⟩
      rw [DocNode.writing_block]
      exact inside.written.bind fun nodes kept => .pure kept
    exact (slots.insert made _).of_perm apart

end Lists

section Element

variable [Surroundings] {tag : String} {attrs : Attrs} {children : List Node} (map : attrs.wellFormed = true)
  (each : ∀ child ∈ children, child.ComesBackOnPage emoji)

include map each

/-- What is found in an element is found in the block that it is read as. -/
theorem blockElement_framed :
    Slugged.Gives (fun doc => AreFramedBlocks ((Node.element tag attrs children).found true) doc.toList)
      (blockElement tag attrs (children.map (reading emoji))) := by
  have lines := line_framed fun child member => (each child member).inline
  have blocks := blocks_framed each
  have items := listItems_framed each
  have holds : ∀ {kind : TagKind}, TagKind.ofTag tag = kind → (∀ mark, kind ≠ .mark mark) →
      Node.holdsLine tag = true := by
    rintro _ rfl other
    rw [Node.holdsLine]
    cases found : MarkKind.ofTag? tag with
    | none => rfl
    | some mark => exact absurd (TagKind.ofTag_of_mark found) (other mark)
  rw [Node.found_element]
  simp only [blockElement]
  cases meaning : TagKind.ofTag tag with
  | paragraph =>
    rw [Found.around, meaning]
    exact lines.bind fun docs content => .pure (.single (.paragraph false content))
  | heading level =>
    have named := TagKind.heading_tag meaning
    rw [Found.around, meaning]
    refine (Slugged.Gives.any _).bind fun id _ => lines.bind fun docs content => .pure (.single ⟨rfl, fun _ => ?_⟩)
    rw [DocNode.writing_block]
    refine content.bind fun nodes kept => (Slugged.Gives.any _).bind fun id _ => .pure ?_
    have whole : Found.IsKept true (Found.around true tag [] "" _) [.element tag [("id", .str id)] nodes] :=
      kept.around (holds meaning (by simp)) "" fun moved written content inside => by
        rwa [Found.around, Found.around, meaning]
    rw [named] at whole meaning
    rwa [Found.around, meaning] at whole
  | bulletList | orderedList =>
    rw [Found.around, meaning]
    refine items.bind fun docs content => .pure (.single ?_)
    exact .around rfl content (by decide) (fun _ _ => rfl) fun _ => rfl
  | listItem | blockquote =>
    rw [Found.around, meaning]
    refine blocks.bind fun docs content => .pure (.single ?_)
    exact .around rfl content (by decide) (fun _ _ => rfl) fun _ => rfl
  | template =>
    rw [Found.around, meaning]
    simp only [slot, bind_assoc, pure_bind]
    refine blocks.bind fun docs content => .pure (.single ?_)
    exact .around rfl content (by decide) (fun _ _ => rfl) fun _ => rfl
  | component =>
    rw [Found.around, meaning]
    refine (slots_framed each).bind fun docs content => .pure (.single ?_)
    refine .around rfl content (holds meaning (by simp)) (fun _ _ => ?_) fun _ => rfl
    rw [Found.around, meaning]
  | horizontalRule | codeBlock =>
    rw [Found.around, meaning]
    refine .pure (.single ⟨rfl, fun _ => .pure ⟨[], _, .refl _, ?_, .refl _⟩⟩)
    exact .nil
  | html =>
    rw [Found.around, meaning]
    refine .pure (.single ⟨rfl, fun followsInline => ?_⟩)
    rw [DocNode.writing_block]
    refine (Slugged.Gives.any _).bind fun nodes _ => .pure ⟨[], _, .refl _, ?_, .refl _⟩
    rw [List.flatMap_singleton, Node.found_element, Found.around, meaning]
    exact .nil
  | style =>
    rw [Found.around, meaning]
    exact .pure .nil
  | lineBreak | image | video | span | binding | mark kind =>
    have inside : isBlockTag tag = false := by
      rw [isBlockTag, meaning]
    have bare : List.Forall₂ Frame.Returns [] (Frame.ofMarks []) := .nil
    have line := inlineElement_framed rfl (List.forall_mem_nil _) bare map
      (fun child member => (each child member).inline) (List.forall_mem_nil _) inside
    rw [Found.map_under_nil, Node.found_element] at line
    exact line.bind fun docs framed => .pure (.single (.paragraph true framed.line))

omit map each in
/-- A block is read as one node. -/
theorem blockElement_inLine (outside : isBlockTag tag = true) (items : List Reading) :
    Slugged.Gives (fun doc => ∃ block, doc = some block ∧ block.IsBlockInLine) (blockElement tag attrs items) := by
  have one : ∀ {tag : String}, isBlockTag tag = true → ∀ attrs content, ∃ tag' attrs' content',
      [Node.element tag attrs content] = [Node.element tag' attrs' content'] ∧ isBlockTag tag' = true :=
    fun outside attrs content => ⟨_, attrs, content, rfl, outside⟩
  have named := outside
  rw [isBlockTag] at outside
  simp only [blockElement]
  cases meaning : TagKind.ofTag tag with
  | paragraph =>
    refine (Slugged.Gives.any _).bind fun docs _ => .pure ⟨_, rfl, .of_writing rfl rfl ?_⟩
    exact (Slugged.Gives.any _).bind fun content _ => .pure (one (by decide) _ _)
  | heading level =>
    rw [TagKind.heading_tag meaning] at named
    refine (Slugged.Gives.any _).bind fun id _ => (Slugged.Gives.any _).bind fun docs _ => ?_
    refine .pure ⟨_, rfl, .of_writing rfl rfl ?_⟩
    exact (Slugged.Gives.any _).bind fun content _ => (Slugged.Gives.any _).bind fun id _ => .pure (one named _ _)
  | bulletList | orderedList | listItem | blockquote =>
    refine (Slugged.Gives.any _).bind fun docs _ => .pure ⟨_, rfl, .of_writing rfl rfl ?_⟩
    exact (Slugged.Gives.any _).bind fun content _ => .pure (one (by decide) _ _)
  | horizontalRule | codeBlock => exact .pure ⟨_, rfl, .of_writing rfl rfl (.pure (one (by decide) _ _))⟩
  | _ => simp [meaning] at outside

end Element

end Reading

namespace Node

variable [Surroundings] {emoji page : Bool}

theorem comesBack_text (content : String) : (text content).ComesBack emoji page := by
  intro marks outer valid _ frames _
  rw [reading, found_text]
  exact .pure (Reading.textNodes_framed valid frames content)

theorem comesBack_comment (content : String) : (comment content).ComesBack emoji page := by
  intro marks outer _ _ _ _
  rw [reading, found_comment]
  refine .pure (.single rfl ?_)
  rw [DocNode.writing_inline]
  have returns : List.Forall₂ Found.Returns [] ((comment content).found page) := by
    rw [found_comment]
    exact .nil
  exact .pure (.single rfl (List.forall_mem_nil _) (.refl _) returns (.refl _))

/-- An element is read in a line as what it is there, or as the block that it is anywhere. -/
theorem comesBack_element {tag : String} {attrs : Attrs} {children : List Node} (map : attrs.wellFormed = true)
    (each : ∀ child ∈ children, child.ComesBack emoji page)
    (block : Reading.isBlockTag tag = true → Slugged.Gives (fun doc => DocNode.AreFramed page
      ((element tag attrs children).found page) doc.toList)
      (Reading.blockElement tag attrs (children.map (reading emoji)))) :
    (element tag attrs children).ComesBack emoji page := by
  intro marks outer valid noCode frames text
  rw [reading_element, Reading.ofElement]
  by_cases outside : Reading.isBlockTag tag = true
  · have noLink : ∀ mark ∈ marks, mark.kind ≠ .link := by
      intro mark member link
      have whole := text mark member link
      rw [isMarkedText] at whole
      cases found : MarkKind.ofTag? tag with
      | none => simp [found] at whole
      | some kind => simp [Reading.isBlockTag, TagKind.ofTag_of_mark found] at outside
    rw [Frame.ofMarks_eq_nil noLink] at frames
    rw [List.forall₂_nil_right_iff.1 frames, Found.map_under_nil]
    simp only [outside, if_true]
    exact (block outside).bind fun doc framed => .pure framed
  · simp only [outside, Bool.false_eq_true, if_false]
    rw [Bool.not_eq_true] at outside
    exact Reading.inlineElement_framed valid noCode frames map each text outside

variable {node : Node} (valid : node.wellFormed = true)

include valid

/-- What is found in a node of a line is found again. -/
theorem comesBack : node.ComesBack emoji false := by
  induction node using induction with
  | text content => exact comesBack_text content
  | comment content => exact comesBack_comment content
  | element tag attrs children ih =>
    obtain ⟨map, below⟩ := wellFormed_element_iff.1 valid
    refine comesBack_element map (fun child member => ih child member (below child member)) fun outside => ?_
    rw [found_element, Found.around_block outside]
    refine (Reading.blockElement_inLine outside _).weaken fun doc one => ?_
    obtain ⟨block, rfl, inLine⟩ := one
    exact inLine.framed_line

/-- What is found in a node of a page is found again. -/
theorem comesBackOnPage : node.ComesBackOnPage emoji := by
  induction node using induction with
  | text content => exact ⟨comesBack_text content, fun other => by cases other⟩
  | comment content =>
    refine ⟨comesBack_comment content, fun _ => ?_⟩
    rw [reading, found_comment]
    refine .pure (.single ⟨rfl, fun _ => ?_⟩)
    rw [DocNode.writing_block]
    refine .pure ⟨[], [comment content], .refl _, ?_, .refl _⟩
    rw [List.flatMap_singleton, found_comment]
    exact .nil
  | element tag attrs children ih =>
    obtain ⟨map, below⟩ := wellFormed_element_iff.1 valid
    have each : ∀ child ∈ children, child.ComesBackOnPage emoji := fun child member =>
      ih child member (below child member)
    have block : Slugged.Gives _ (Reading.blockElement tag attrs (children.map (reading emoji))) :=
      Reading.blockElement_framed map each
    refine ⟨comesBack_element map (fun child member => (each child member).inline) fun outside => ?_, fun _ => ?_⟩
    · refine (block.and (Reading.blockElement_inLine outside _)).weaken fun doc both => ?_
      obtain ⟨framed, one, rfl, inLine⟩ := both
      exact inLine.framed_page framed
    · rw [block_element]
      exact block

end Node

end ComponentMarkdown
