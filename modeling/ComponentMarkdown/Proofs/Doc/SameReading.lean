import ComponentMarkdown.Proofs.Doc.BlockRoundTrip

namespace ComponentMarkdown

namespace Reading

/-- Readings that cannot be told apart by what they are part of, but for the text and the formatting inside. -/
structure Same (item other : Reading) : Prop where
  block : item.block = other.block
  inline : item.inline = other.inline
  tag : item.node.tag? = other.node.tag?
  slotName : item.node.slotName? = other.node.slotName?
  blank : isBlankText item.node = isBlankText other.node
  place : item.node.fixedPlacement? = other.node.fixedPlacement?

theorem Same.refl (item : Reading) : Same item item := ⟨rfl, rfl, rfl, rfl, rfl, rfl⟩

/-- Elements that fill no slot are read as the same if they are among blocks, and inside a line where they can
be. -/
theorem Same.ofElement [Surroundings] {tag : String} {attrs attrs' : Attrs} {items others : List Reading}
    (noSlot : tag ≠ "template") (block : blockElement tag attrs items = blockElement tag attrs' others)
    (inline : isBlockTag tag = false → inlineElement tag attrs items = inlineElement tag attrs' others) :
    Same (.ofElement tag attrs items) (.ofElement tag attrs' others) where
  block := block
  inline := by
    funext marks
    cases inside : isBlockTag tag with
    | true => simp only [Reading.ofElement, inside, if_true, block]
    | false => simp only [Reading.ofElement, inside, Bool.false_eq_true, if_false, inline inside]
  tag := rfl
  slotName := by simp only [Reading.ofElement, Node.slotName?, noSlot, if_false]
  blank := rfl
  place := rfl

variable {items others : List Reading} (same : List.Forall₂ Same items others)

include same

theorem inlines_congr (marks : List Mark) : inlines marks items = inlines marks others := by
  induction same with
  | nil => rfl
  | cons here _ ih => rw [inlines, inlines, here.inline, ih]

theorem line_congr : line items = line others := by rw [line, line, inlines_congr same]

theorem paragraph_congr : paragraph items = paragraph others := by
  have layout : items.all (fun item => isBlankText item.node) = others.all fun item => isBlankText item.node := by
    induction same with
    | nil => rfl
    | cons here _ ih => rw [List.all_cons, List.all_cons, here.blank, ih]
  rw [paragraph, paragraph, layout, line_congr same]

theorem neighbourPlace_head :
    Node.neighbourPlace (items.head?.map node) = Node.neighbourPlace (others.head?.map node) := by
  cases same with
  | nil => rfl
  | cons here _ => exact here.place

/-- What waits to be read as a line is read as the same, and what is in front has the same place. -/
theorem blocksFrom_congr {waiting waiting' : List Reading} (inFront : List.Forall₂ Same waiting waiting')
    {before before' : Option Node} (place : Node.neighbourPlace before = Node.neighbourPlace before') :
    blocksFrom waiting before items = blocksFrom waiting' before' others := by
  induction same generalizing waiting waiting' before before' with
  | nil => exact paragraph_congr inFront
  | @cons item other rest rest' here below ih =>
    have inside : Node.isInlineBetween before item.node (rest.head?.map node) =
        Node.isInlineBetween before' other.node (rest'.head?.map node) := by
      rw [Node.isInlineBetween_eq, Node.isInlineBetween_eq, place, here.place, neighbourPlace_head below]
    have next : Node.neighbourPlace (some item.node) = Node.neighbourPlace (some other.node) := here.place
    rw [blocksFrom, blocksFrom, inside, paragraph_congr inFront, here.block, ih .nil next,
      ih (List.rel_append inFront (.cons here .nil)) next]

theorem blocks_congr : blocks items = blocks others := blocksFrom_congr same .nil rfl

theorem eachBlock_congr : eachBlock items = eachBlock others := by
  induction same with
  | nil => rfl
  | cons here _ ih => rw [eachBlock, eachBlock, here.block, ih]

theorem listItems_congr : listItems items = listItems others := by
  induction same with
  | nil => rfl
  | cons here _ ih =>
    have single := blocks_congr (.cons here .nil)
    rw [listItems, listItems, listItem, listItem, here.tag, here.blank, here.block, single, ih]

theorem slots_congr : slots items = slots others := by
  have fills : ∀ {item other : Reading}, Same item other → fillsSlot item = fillsSlot other := by
    intro item other same
    rw [fillsSlot, fillsSlot, same.slotName]
  have named : List.Forall₂ Same (items.filter fillsSlot) (others.filter fillsSlot) :=
    List.rel_filter (fun item other alike => by simp only [fills alike]) same
  have bare : List.Forall₂ Same (items.filter (!fillsSlot ·)) (others.filter (!fillsSlot ·)) :=
    List.rel_filter (fun item other alike => by simp only [fills alike]) same
  have place : (items.takeWhile fillsSlot).length = (others.takeWhile fillsSlot).length := by
    clear named bare
    induction same with
    | nil => rfl
    | cons here _ ih =>
      rw [List.takeWhile_cons, List.takeWhile_cons, fills here]
      split
      · rw [List.length_cons, List.length_cons, ih]
      · rfl
  have empty : (items.filter (!fillsSlot ·)).isEmpty = (others.filter (!fillsSlot ·)).isEmpty := by
    generalize items.filter (!fillsSlot ·) = left at bare ⊢
    generalize others.filter (!fillsSlot ·) = right at bare ⊢
    cases bare <;> rfl
  simp only [slots, eachBlock_congr named, blocks_congr bare, place, empty]

end Reading

/-- Whether the children of an element are read as nodes, inside a line at least. -/
def TagKind.readsChildren : TagKind → Bool
  | mark .code | codeBlock | horizontalRule | lineBreak | image | video | binding | style => false
  | _ => true

namespace Reading

section Element

variable {items others : List Reading} {tag : String} {attrs : Attrs}
  (text : Node.textOf (items.map node) = Node.textOf (others.map node))
  (same : (TagKind.ofTag tag).readsChildren = true → List.Forall₂ Same items others)
  (links : TagKind.ofTag tag = .mark .link →
    Node.areMarkedText (items.map node) = Node.areMarkedText (others.map node))

include text same links

theorem inlineElement_congr [Surroundings] (marks : List Mark) :
    inlineElement tag attrs items marks = inlineElement tag attrs others marks := by
  rw [inlineElement, inlineElement]
  cases meaning : TagKind.ofTag tag with
  | mark kind =>
    cases kind with
    | code => simp only [marked, text]
    | link =>
      have children := same (by rw [meaning]; rfl)
      simp only [marked, links meaning, inlines_congr children, linkNode, line_congr children]
    | bold | italic | strike =>
      have children := same (by rw [meaning]; rfl)
      simp only [marked, inlines_congr children]
  | span | component | template | html =>
    have children := same (by rw [meaning]; rfl)
    simp only [line_congr children]
  | _ => rfl

theorem blockElement_congr [Surroundings] : blockElement tag attrs items = blockElement tag attrs others := by
  have inline : inlineElement tag attrs items [] = inlineElement tag attrs others [] :=
    inlineElement_congr text same links []
  rw [blockElement, blockElement]
  by_cases reads : (TagKind.ofTag tag).readsChildren = true
  · have children := same reads
    simp only [slot, text, inline, line_congr children, blocks_congr children, listItems_congr children,
      slots_congr children]
  · cases meaning : TagKind.ofTag tag <;> simp only [meaning, TagKind.readsChildren, not_true_eq_false] at reads <;>
      simp only [text, inline]

/-- Elements whose children have the same text, and are read as the same where they are read, are read as the same,
if links do not turn into other links. -/
theorem ofElement_congr [Surroundings] : Same (.ofElement tag attrs items) (.ofElement tag attrs others) where
  block := blockElement_congr text same links
  inline := by
    funext marks
    simp only [ofElement, blockElement_congr text same links, inlineElement_congr text same links marks]
  tag := rfl
  slotName := rfl
  blank := rfl
  place := rfl

end Element

end Reading

end ComponentMarkdown
