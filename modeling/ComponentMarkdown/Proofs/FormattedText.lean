import ComponentMarkdown.Platform
import ComponentMarkdown.Proofs.Doc.BlockRoundTrip
import ComponentMarkdown.Proofs.Doc.Bridging
import ComponentMarkdown.Proofs.RoundTrip

namespace ComponentMarkdown

namespace StyledText

/-- The text as it is folded into elements. -/
def toMarked (text : StyledText) : MarkedNode := ⟨text.2, .text text.1⟩

theorem styled_toMarked [Surroundings] (text : StyledText) : text.toMarked.styled = StyledChar.ofText text := by
  rw [MarkedNode.styled, toMarked, Node.styled]

theorem coalesced?_toMarked (x y : StyledText) :
    MarkedNode.coalesced? x.toMarked y.toMarked = (joined? x y).map toMarked := by
  rw [toMarked, toMarked, MarkedNode.coalesced?, joined?]
  split <;> rfl

variable {texts : List StyledText}

theorem isEditable_joined [Surroundings] (some : ∀ text ∈ texts, text.1 ≠ "")
    (editable : ∀ text ∈ texts, Mark.AreEditable text.2) :
    ∀ item ∈ (mergeNeighbours joined? texts).map toMarked, item.IsEditable := by
  have kept : ∀ text ∈ mergeNeighbours joined? texts, text.1 ≠ "" ∧ Mark.AreEditable text.2 := by
    refine forall_mergeNeighbours ?_ fun text member => ⟨some text member, editable text member⟩
    rintro x y z ⟨nonempty, marks⟩ - merged
    obtain ⟨_, rfl⟩ := joined?_eq_some merged
    exact ⟨by simp [nonempty], marks⟩
  intro item member
  obtain ⟨text, inside, rfl⟩ := List.mem_map.1 member
  exact ⟨⟨text.1, (kept text inside).1, rfl⟩, (kept text inside).2⟩

/-- A line of texts is written as formatted text, in which only blanks have changed. -/
theorem line_formatted [Surroundings] (some : ∀ text ∈ texts, text.1 ≠ "")
    (editable : ∀ text ∈ texts, Mark.AreEditable text.2) :
    ∃ nodes, Writing.line ((texts.map DocNode.ofText).map DocNode.writing) = pure nodes ∧
      Node.areFormattedText nodes = true ∧
      StyledChar.AllSame (Node.styledAll [] nodes) (StyledChar.bridged none (StyledChar.ofTexts texts)) := by
  have written : ∀ text ∈ texts, (DocNode.ofText text).writing.inline = pure [text.toMarked] := fun text _ =>
    DocNode.writing_inline _
  have valid : ∀ text ∈ texts, text.2.all Mark.wellFormed = true := fun text member =>
    List.all_eq_true.2 fun mark inside => ((editable text member).each mark inside).wellFormed
  have joined := mergeNeighbours_map coalesced?_toMarked texts
  obtain ⟨tidy, folded⟩ := MarkedNode.styled_nest (isEditable_joined some editable)
  have chars :
      StyledChar.AllSame (Node.styledAll [] (MarkedNode.nest ((mergeNeighbours joined? texts).map toMarked)))
        (StyledChar.ofTexts texts) := by
    refine folded.trans ?_
    rw [List.flatMap_map]
    simp only [styled_toMarked]
    exact joined_same valid
  refine ⟨Node.joinSplitMarks (MarkedNode.nest ((mergeNeighbours joined? texts).map toMarked)), ?_, ?_, ?_⟩
  · rw [Writing.line, Writing.marked_map written, pure_bind, MarkedNode.coalesce_eq, joined]
  · exact Node.areFormattedText_iff.2 fun node member =>
      (Node.isTidy_joinSplitMarks tidy node member).isFormattedText
  · have bridged := Node.styled_joinSplitMarks tidy chars.valid fun more _ => StyledChar.bridge?_none_left _
    exact bridged.trans (chars.bridged .none)

end StyledText

namespace Doc

theorem blocks_paragraph [Surroundings] {docs : List DocNode} {nodes : List Node}
    (written : Writing.line (docs.map DocNode.writing) = pure nodes) :
    Writing.blocks ([DocNode.paragraph false docs].map DocNode.writing) = pure [.element "p" [] nodes] := by
  rw [List.map_singleton, Writing.blocks, Writing.blocksFrom_cons rfl, DocNode.writing_block]
  simp only [Writing.blockOf, DocNode.children, written, pure_bind]
  rfl

theorem toTree_paragraph [Surroundings] {docs : List DocNode} {nodes : List Node}
    (written : Writing.line (docs.map DocNode.writing) = pure nodes) :
    toTree ⟨[.paragraph false docs]⟩ = .ofNodes [.element "p" [] nodes] := by
  rw [toTree, blocks_paragraph written]
  rfl

theorem ofTree_paragraph [Surroundings] {docs : List DocNode} {nodes : List Node}
    (read : Reading.line (nodes.map (Node.reading false)) = pure docs) :
    ofTree (.ofNodes [.element "p" [] nodes]) false = ⟨[.frontmatter [] none [], .paragraph false docs]⟩ := by
  rw [ofTree_paragraph_eq rfl, read]
  rfl

/-- Text that is saved and opened again. -/
theorem ofTree_toTree_paragraph [Surroundings] {texts : List StyledText} (some : ∀ text ∈ texts, text.1 ≠ "")
    (editable : ∀ text ∈ texts, Mark.AreEditable text.2) :
    ∃ reopened : List StyledText,
      ofTree (toTree ⟨[.paragraph false (texts.map DocNode.ofText)]⟩) false =
        ⟨[.frontmatter [] none [], .paragraph false (reopened.map DocNode.ofText)]⟩ ∧
      StyledChar.AllSame (StyledChar.ofTexts reopened) (StyledChar.bridged none (StyledChar.ofTexts texts)) := by
  obtain ⟨nodes, written, formatted, bridged⟩ := StyledText.line_formatted some editable
  obtain ⟨reopened, read, same⟩ := Reading.line_formatted formatted bridged.valid
  refine ⟨reopened, ?_, same.trans bridged⟩
  rw [toTree_paragraph written, ofTree_paragraph read]

/-- Two pieces of a link with a blank between them, which becomes part of the link. -/
theorem ofTree_toTree_paragraph_link :
    letI : Surroundings := .platform
    ∃ reopened : List StyledText,
      ofTree (toTree ⟨[.paragraph false (List.map DocNode.ofText
        [("in", [⟨.bold, []⟩, ⟨.link, LinkPolicy.editorAttrs [("href", .str "https://a.b")]⟩]), (" ", []),
          ("it", [⟨.code, []⟩, ⟨.link, LinkPolicy.editorAttrs [("href", .str "https://a.b")]⟩]),
          ("!", [])])]⟩) false =
        ⟨[.frontmatter [] none [], .paragraph false (reopened.map DocNode.ofText)]⟩ ∧
      StyledChar.AllSame (StyledChar.ofTexts reopened) (StyledChar.ofTexts
        [("in", [⟨.bold, []⟩, ⟨.link, LinkPolicy.editorAttrs [("href", .str "https://a.b")]⟩]),
          (" ", [⟨.link, LinkPolicy.editorAttrs [("href", .str "https://a.b")]⟩]),
          ("it", [⟨.code, []⟩, ⟨.link, LinkPolicy.editorAttrs [("href", .str "https://a.b")]⟩]), ("!", [])]) := by
  let _ : Surroundings := .platform
  have link : Mark.IsEditable ⟨.link, LinkPolicy.editorAttrs [("href", .str "https://a.b")]⟩ :=
    ⟨by decide, by decide, fun _ => ⟨[("href", .str "https://a.b")], by decide, by decide, by decide⟩⟩
  have bold : Mark.IsEditable ⟨.bold, []⟩ := ⟨by decide, by decide, by simp⟩
  have code : Mark.IsEditable ⟨.code, []⟩ := ⟨by decide, by decide, by simp⟩
  refine ofTree_toTree_paragraph (by decide) ?_
  simp only [List.forall_mem_cons, List.not_mem_nil, false_imp_iff, implies_true, and_true]
  refine ⟨⟨?_, ?_, by decide⟩, ⟨?_, ?_, by decide⟩, ⟨?_, ?_, by decide⟩, ⟨?_, ?_, by decide⟩⟩ <;>
    simp [bold, code, link]

end Doc

end ComponentMarkdown
