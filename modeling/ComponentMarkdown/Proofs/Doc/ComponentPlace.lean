import ComponentMarkdown.Platform
import ComponentMarkdown.Proofs.Doc.BlockRoundTrip
import ComponentMarkdown.Proofs.Markup.Rendering

namespace ComponentMarkdown

namespace Node

theorem isInlineBetween_of_free {node : Node} (free : node.fixedPlacement? = none) (before after : Option Node) :
    isInlineBetween before node after = false ↔
      neighbourPlace before ≠ some .inline ∧ neighbourPlace after ≠ some .inline := by
  rw [isInlineBetween_eq, free, Bool.or_eq_false_iff, decide_eq_false_iff_not, decide_eq_false_iff_not]

theorem isInlineAt_append (nodes : List Node) (node : Node) (rest : List Node) :
    isInlineAt (nodes ++ node :: rest) nodes.length = isInlineBetween nodes.getLast? node rest.head? := by
  have here : (nodes ++ node :: rest)[nodes.length]? = some node := by simp
  have behind : (nodes ++ node :: rest)[nodes.length + 1]? = rest.head? := by
    rw [List.getElem?_append_right (by omega), show nodes.length + 1 - nodes.length = 1 by omega,
      List.getElem?_cons_succ, List.head?_eq_getElem?]
  simp only [isInlineAt, here, behind]
  rcases List.eq_nil_or_concat nodes with rfl | ⟨front, last, rfl⟩
  · rfl
  · simp

end Node

namespace Writing

/-- The blocks of a list up to one that is not inline are written before it. -/
theorem blocksFrom_append [Surroundings] {doc : DocNode} (outside : doc.isInline = false) (front : List DocNode)
    (done : List Node) (line : List Writing) (more : List Writing) :
    blocksFrom done line (front.map DocNode.writing ++ doc.writing :: more) = (do
      let before ← blocksFrom done line (front.map DocNode.writing)
      let nodes ← doc.writing.block (endsInline before)
      blocksFrom (before ++ nodes) [] more) := by
  induction front generalizing done line with
  | nil =>
    rw [List.map_nil, List.nil_append, blocksFrom, blocksFrom, DocNode.writing_node, outside]
    simp only [Bool.false_eq_true, if_false, bind_assoc, pure_bind]
  | cons first rest ih =>
    rw [List.map_cons, List.cons_append, blocksFrom, blocksFrom]
    split
    · exact ih done _
    · simp only [ih, bind_assoc]

theorem endsInline_append {done : List Node} (apart : endsInline done = false)
    (last : Node.neighbourPlace done.getLast? ≠ some .inline) (nodes : List Node) :
    endsInline (done ++ nodes) = endsInline nodes := by
  rcases List.eq_nil_or_concat nodes with rfl | ⟨front, node, rfl⟩
  · rw [List.append_nil, apart]
    rfl
  · rw [List.concat_eq_append, ← List.append_assoc, Node.endsInline_concat, Node.endsInline_concat]
    rcases List.eq_nil_or_concat front with rfl | ⟨_, _, rfl⟩
    · rw [List.append_nil, Node.isInlineBetween_eq, Node.isInlineBetween_eq, decide_eq_false last]
      rfl
    · rw [List.concat_eq_append, ← List.append_assoc, List.getLast?_concat, List.getLast?_concat]

/-- Blocks are written in the same way behind nodes that end in nothing inline. -/
theorem blocksFrom_behind [Surroundings] {done : List Node} (apart : endsInline done = false)
    (last : Node.neighbourPlace done.getLast? ≠ some .inline) (written : List Node) (line items : List Writing) :
    blocksFrom (done ++ written) line items = do return done ++ (← blocksFrom written line items) := by
  induction items generalizing written line with
  | nil => simp only [blocksFrom, bind_assoc, pure_bind, List.append_assoc]
  | cons item rest ih =>
    rw [blocksFrom, blocksFrom]
    split
    · exact ih written _
    · simp only [List.append_assoc, endsInline_append apart last, ih, bind_assoc]

theorem blocksFrom_starts [Surroundings] (done : List Node) (line items : List Writing) :
    Slugged.Gives (fun nodes => ∃ rest, nodes = done ++ rest) (blocksFrom done line items) := by
  induction items generalizing done line with
  | nil => exact (Slugged.Gives.any _).bind fun content _ => .pure ⟨content, rfl⟩
  | cons item rest ih =>
    rw [blocksFrom]
    split
    · exact ih done _
    · refine (Slugged.Gives.any _).bind fun content _ => (Slugged.Gives.any _).bind fun nodes _ => ?_
      refine (ih _ []).weaken fun _ starts => ?_
      obtain ⟨tail, rfl⟩ := starts
      exact ⟨content ++ (nodes ++ tail), by simp only [List.append_assoc]⟩

end Writing

namespace DocNode

/-- Whether a node is written as one node that is not inline, whatever stands beside it. -/
def standsApart : DocNode → Bool
  | .paragraph synthetic _ | .slot _ _ synthetic _ => !synthetic
  | .element tag _ _ => Placement.ofTag? tag ≠ some .inline
  | .heading _ _ _ | .bulletList _ | .orderedList _ _ | .listItem _ | .blockquote _ | .horizontalRule
  | .codeBlock _ _ _ | .comment _ | .unknown _ _ _ => true
  | _ => false

theorem heading_tag_not_inline (level : Nat) : Placement.ofTag? ("h" ++ toString level) ≠ some .inline := by
  have plain : ("h" ++ toString level) ∉ Placement.inlineTags := by
    intro listed
    have others : ∀ tag ∈ Placement.inlineTags, tag.toList.head? ≠ some 'h' := by decide
    refine others _ listed ?_
    rw [String.toList_append]
    rfl
  rw [Placement.ofTag?, if_neg plain]
  split <;> simp

theorem standsApart_outside {doc : DocNode} (apart : doc.standsApart = true) : doc.isInline = false := by
  cases doc <;> first | rfl | cases apart

theorem standsApart_block [Surroundings] {doc : DocNode} (apart : doc.standsApart = true) (followsInline : Bool) :
    Slugged.Gives (fun nodes => ∃ node, nodes = [node] ∧ node.fixedPlacement? ≠ some .inline)
      (doc.writing.block followsInline) := by
  have single : ∀ (tag : String) (attrs : Attrs) (content : Slugged (List Node)),
    Placement.ofTag? tag ≠ some .inline →
      Slugged.Gives (fun nodes => ∃ node, nodes = [node] ∧ node.fixedPlacement? ≠ some .inline)
        (do return [Node.element tag attrs (← content)]) :=
    fun tag attrs content place => (Slugged.Gives.any _).bind fun content _ => .pure ⟨_, rfl, place⟩
  rw [writing_block]
  cases doc
  case paragraph synthetic children =>
    cases synthetic with
    | true => cases apart
    | false => exact single _ _ _ (by decide)
  case slot name props synthetic children =>
    cases synthetic with
    | true => cases apart
    | false => exact single _ _ _ (by decide)
  case heading level id children =>
    refine (Slugged.Gives.any _).bind fun content _ => (Slugged.Gives.any _).bind fun id _ => .pure ?_
    exact ⟨_, rfl, heading_tag_not_inline level⟩
  case element tag props children => exact single _ _ _ (by simpa [standsApart] using apart)
  case bulletList | orderedList | listItem | blockquote => exact single _ _ _ (by decide)
  case horizontalRule => exact .pure ⟨_, rfl, by decide⟩
  case codeBlock => exact .pure ⟨_, rfl, (by decide : Placement.ofTag? "pre" ≠ some .inline)⟩
  case unknown => exact .pure ⟨_, rfl, (by decide : Placement.ofTag? "p" ≠ some .inline)⟩
  case comment => exact .pure ⟨_, rfl, nofun⟩
  all_goals cases apart

/-- What siblings are written as after the slugs of a registry, and the registry behind them. -/
def written [Surroundings] (docs : List DocNode) (registry : SlugRegistry) : List Node × SlugRegistry :=
  (Writing.blocks (docs.map writing)).run registry

theorem written_nil [Surroundings] (r : SlugRegistry) : written [] r = ([], r) := rfl

/-- Siblings that end in a block that stands apart are written to end in nothing inline. -/
theorem written_getLast? [Surroundings] {front : List DocNode}
    (apart : ∀ doc ∈ front.getLast?, doc.standsApart = true)
    (r : SlugRegistry) : Node.neighbourPlace (written front r).1.getLast? ≠ some .inline := by
  rcases List.eq_nil_or_concat front with rfl | ⟨others, doc, rfl⟩
  · rw [written_nil]
    nofun
  · rw [List.concat_eq_append, List.getLast?_concat] at apart
    have here := apart doc rfl
    rw [List.concat_eq_append, written, List.map_append, List.map_singleton, Writing.blocks,
      Writing.blocksFrom_append (standsApart_outside here), Slugged.run_bind, Slugged.run_bind,
      Writing.blocksFrom_nil, Slugged.run_pure]
    obtain ⟨node, same, place⟩ := standsApart_block here _ _
    rw [same, List.getLast?_concat]
    exact place

theorem written_head? [Surroundings] {back : List DocNode} (apart : ∀ doc ∈ back.head?, doc.standsApart = true)
    (r : SlugRegistry) : Node.neighbourPlace (written back r).1.head? ≠ some .inline := by
  cases back with
  | nil =>
    rw [written_nil]
    nofun
  | cons doc rest =>
    have here := apart doc rfl
    rw [written, List.map_cons, Writing.blocks,
      Writing.blocksFrom_cons (standsApart_outside here), Slugged.run_bind]
    obtain ⟨node, same, place⟩ := standsApart_block here _ _
    rw [same]
    obtain ⟨tail, starts⟩ := Writing.blocksFrom_starts [node] [] (rest.map writing) _
    rw [List.nil_append, starts]
    exact place

section Component

variable {tag : String} {props : Attrs} {front children back : List DocNode} {r r₁ r₂ r₃ : SlugRegistry}
  {before content after : List Node}

theorem written_component [Surroundings] (first : written front r = (before, r₁))
    (inside : written children r₁ = (content, r₂)) : written (front ++ .element tag props children :: back) r =
      (Writing.blocksFrom (before ++ [.element tag props content]) [] (back.map writing)).run r₂ := by
  unfold written at first inside ⊢
  rw [List.map_append, List.map_cons, Writing.blocks, Writing.blocksFrom_append rfl, Slugged.run_bind,
    ← Writing.blocks, first, writing_block]
  simp only [Writing.blockOf, DocNode.children, bind_assoc, pure_bind]
  rw [Slugged.run_bind, inside]

/-- A component that is written behind something that is not inline does not change what follows it. -/
theorem written_component_behind [Surroundings] (meaning : TagKind.ofTag tag = .component)
    (first : written front r = (before, r₁)) (inside : written children r₁ = (content, r₂))
    (last : written back r₂ = (after, r₃)) (apart : Node.neighbourPlace before.getLast? ≠ some .inline) :
    written (front ++ .element tag props children :: back) r =
      (before ++ .element tag props content :: after, r₃) := by
  have free := Node.fixedPlacement?_of_component meaning props content
  have block : Writing.endsInline (before ++ [Node.element tag props content]) = false := by
    rw [Node.endsInline_concat, Node.isInlineBetween_of_free free]
    exact ⟨apart, by simp [Node.neighbourPlace]⟩
  have place : Node.neighbourPlace (before ++ [Node.element tag props content]).getLast? ≠ some .inline := by
    rw [List.getLast?_concat, Node.neighbourPlace, Option.bind_some, free]
    simp
  have behind := Writing.blocksFrom_behind block place [] [] (back.map writing)
  rw [List.append_nil] at behind
  rw [written_component first inside, behind, Slugged.run_bind]
  unfold written at last
  rw [← Writing.blocks, last, Slugged.run_pure, List.append_assoc]
  rfl

/-- A component is written as a component between its neighbours, and what is written behind it is what would
be written without it, unless the component ends a line. -/
theorem exists_written_component [Surroundings] (meaning : TagKind.ofTag tag = .component)
    (first : written front r = (before, r₁)) (inside : written children r₁ = (content, r₂))
    (last : written back r₂ = (after, r₃)) :
    ∃ rest, (written (front ++ .element tag props children :: back) r).1 =
        before ++ .element tag props content :: rest ∧
      (Node.neighbourPlace before.getLast? ≠ some .inline → rest = after) := by
  by_cases ends : Node.neighbourPlace before.getLast? = some .inline
  · obtain ⟨rest, same⟩ :=
      Writing.blocksFrom_starts (before ++ [.element tag props content]) [] (back.map writing) r₂
    refine ⟨rest, ?_, fun other => absurd ends other⟩
    rw [written_component first inside, same, List.append_assoc]
    rfl
  · refine ⟨after, ?_, fun _ => rfl⟩
    rw [written_component_behind meaning first inside last ends]

end Component

end DocNode

namespace Reading

open Node (reading)

variable {emoji : Bool}

/-- A sibling list is read piece by piece around a block. -/
theorem blocksFrom_append [Surroundings] {node : Node} {rest : List Node}
    (apart : node.fixedPlacement? ≠ some .inline) (front : List Node) (before : Option Node)
    (block : Node.isInlineBetween (front.getLast?.or before) node rest.head? = false) (waiting : List Reading) :
    blocksFrom waiting before ((front ++ node :: rest).map (reading emoji)) = do
      let first ← blocksFrom waiting before (front.map (reading emoji))
      let block ← (node.reading emoji).block
      let tail ← blocksFrom [] (some node) (rest.map (reading emoji))
      return first ++ block.toList ++ tail := by
  induction front generalizing before waiting with
  | nil =>
    rw [List.getLast?_nil, Option.none_or] at block
    rw [List.nil_append, List.map_cons, List.map_nil, blocksFrom, blocksFrom, Node.reading_node,
      Node.head?_map_reading, block]
    simp only [Bool.false_eq_true, if_false]
  | cons first more ih =>
    have last : (more.getLast?.or (some first)) = (first :: more).getLast?.or before := by
      rw [List.getLast?_cons]
      cases more.getLast? <;> rfl
    rw [← last] at block
    rw [List.cons_append, List.map_cons, List.map_cons, blocksFrom, blocksFrom, Node.reading_node,
      Node.head?_map_reading, Node.head?_map_reading, Node.isInlineBetween_head?_append apart]
    split
    · exact ih (some first) block _
    · simp only [ih (some first) block, bind_assoc, pure_bind, List.append_assoc]

theorem blocksFrom_behind [Surroundings] {node : Node} (apart : node.fixedPlacement? ≠ some .inline)
    (rest : List Node) :
    blocksFrom [] (some node) (rest.map (reading emoji)) = blocks (rest.map (reading emoji)) := by
  rw [blocks]
  cases rest with
  | nil => rfl
  | cons next more => rw [List.map_cons, blocksFrom, blocksFrom, Node.isInlineBetween_behind apart]

end Reading

namespace DocNode

section Component

variable {tag : String} {props : Attrs} {front children back : List DocNode} {r r₁ r₂ r₃ : SlugRegistry}
  {before content after : List Node}

/-- Where a component stands after writing, it is a block exactly if what is written right before and right
behind it is not inline. Then its neighbours are written as they are without it, it gets component fences,
and it is read as a component of the document again. -/
theorem component_isBlock_iff [Surroundings] (meaning : TagKind.ofTag tag = .component)
    (first : written front r = (before, r₁)) (inside : written children r₁ = (content, r₂))
    (last : written back r₂ = (after, r₃)) (props : Attrs) :
    ∃ rest, (written (front ++ .element tag props children :: back) r).1 =
        before ++ .element tag props content :: rest ∧
      (Node.isInlineAt (before ++ .element tag props content :: rest) before.length = false ↔
        Node.neighbourPlace before.getLast? ≠ some .inline ∧ Node.neighbourPlace after.head? ≠ some .inline) ∧
      (Node.isInlineAt (before ++ .element tag props content :: rest) before.length = false →
        rest = after ∧
        (∀ depth,
          Writer.blockParts depth none none ((before ++ .element tag props content :: rest).map Node.render) =
          Writer.blockParts depth none none (before.map Node.render) ++
            Writer.component tag props (content.map Node.render) depth ::
              Writer.blockParts depth none none (rest.map Node.render)) ∧
        ∀ emoji, Reading.blocks ((before ++ .element tag props content :: rest).map (Node.reading emoji)) = do
          let docs ← Reading.blocks (before.map (Node.reading emoji))
          let slots ← Reading.slots (content.map (Node.reading emoji))
          let more ← Reading.blocks (rest.map (Node.reading emoji))
          return docs ++ .element tag props slots :: more) := by
  have free := Node.fixedPlacement?_of_component meaning props content
  have apart : (Node.element tag props content).fixedPlacement? ≠ some .inline := by simp [free]
  obtain ⟨rest, starts, kept⟩ := @exists_written_component tag props _ _ _ _ _ _ _ _ _ _ _ meaning first inside last
  have place : Node.isInlineAt (before ++ .element tag props content :: rest) before.length = false ↔
      Node.neighbourPlace before.getLast? ≠ some .inline ∧ Node.neighbourPlace rest.head? ≠ some .inline := by
    rw [Node.isInlineAt_append, Node.isInlineBetween_of_free free]
  refine ⟨rest, starts, ?_, fun block => ⟨kept (place.1 block).1, fun depth => ?_, fun emoji => ?_⟩⟩
  · rw [place]
    exact and_congr_right fun other => by rw [kept other]
  · rw [Node.isInlineAt_append] at block
    rw [Writer.blockParts_append apart before none (by rwa [Option.or_none]), Writer.blockParts_behind apart,
      Node.block_render_component meaning, List.append_assoc]
    rfl
  · rw [Node.isInlineAt_append] at block
    rw [Reading.blocks, Reading.blocksFrom_append apart before none (by rwa [Option.or_none]),
      Reading.blocksFrom_behind apart, Node.block_element]
    simp only [Reading.blockElement, meaning, Reading.blocks, bind_assoc, pure_bind, Option.toList_some,
      List.append_assoc, List.singleton_append]

/-- A card between a paragraph and a heading. -/
theorem component_isBlock_iff_between :
    letI : Surroundings := .platform
    ∃ rest, (written ([.paragraph false [.text "A" []]] ++ .element "card" [] [.paragraph true [.text "hi" []]] ::
        [.heading 2 "b" [.text "B" []]]) .empty).1 =
        [.element "p" [] [.text "A"]] ++ .element "card" [] [.text "hi"] :: rest ∧
      Node.isInlineAt ([.element "p" [] [.text "A"]] ++ .element "card" [] [.text "hi"] :: rest) 1 = false := by
  let _ : Surroundings := .platform
  have first : written [.paragraph false [.text "A" []]] .empty = ([.element "p" [] [.text "A"]], .empty) := rfl
  have inside : written [.paragraph true [.text "hi" []]] .empty = ([.text "hi"], .empty) := rfl
  have last : ∀ r, written [.heading 2 "b" [.text "B" []]] r =
    ([.element "h2" [("id", .str (r.issue "B").1)] [.text "B"]], (r.issue "B").2) := fun _ => rfl
  obtain ⟨rest, starts, place, _⟩ := component_isBlock_iff (by decide : TagKind.ofTag "card" = .component) first
    inside (last .empty) []
  exact ⟨rest, starts, place.2 ⟨by decide, by decide⟩⟩

/-- Beside the text of a synthetic paragraph, in front of it or behind it, a component becomes inline. -/
theorem component_inline_beside_synthetic :
    letI : Surroundings := .platform
    (Doc.toTree ⟨[.element "card" [] [], .paragraph true [.text "hi" []]]⟩).nodes =
        [.element "card" [] [], .text "hi"] ∧
      Node.isInlineAt [.element "card" [] [], .text "hi"] 0 = true ∧
      (Doc.toTree ⟨[.paragraph true [.text "hi" []], .element "card" [] []]⟩).nodes =
        [.text "hi", .element "card" [] []] ∧
      Node.isInlineAt [.text "hi", .element "card" [] []] 1 = true :=
  ⟨rfl, rfl, rfl, rfl⟩

/-- A component stays a block beside blocks that stand apart. -/
theorem component_isBlock_of_standsApart [Surroundings] (meaning : TagKind.ofTag tag = .component)
    (apart : ∀ doc ∈ front.getLast?, doc.standsApart = true) (apart' : ∀ doc ∈ back.head?, doc.standsApart = true)
    (props : Attrs) (r : SlugRegistry) :
    ∃ before content after, (written (front ++ .element tag props children :: back) r).1 =
        before ++ .element tag props content :: after ∧
      Node.isInlineAt (before ++ .element tag props content :: after) before.length = false := by
  obtain ⟨before, r₁, first⟩ : ∃ before r₁, written front r = (before, r₁) := ⟨_, _, rfl⟩
  obtain ⟨content, r₂, inside⟩ : ∃ content r₂, written children r₁ = (content, r₂) := ⟨_, _, rfl⟩
  obtain ⟨after, r₃, last⟩ : ∃ after r₃, written back r₂ = (after, r₃) := ⟨_, _, rfl⟩
  have ends := written_getLast? apart r
  have starts := written_head? apart' r₂
  rw [first] at ends
  rw [last] at starts
  refine ⟨before, content, after, ?_, ?_⟩
  · rw [written_component_behind meaning first inside last ends]
  · rw [Node.isInlineAt_append, Node.isInlineBetween_of_free (Node.fixedPlacement?_of_component meaning _ _)]
    exact ⟨ends, starts⟩

end Component

end DocNode

end ComponentMarkdown
