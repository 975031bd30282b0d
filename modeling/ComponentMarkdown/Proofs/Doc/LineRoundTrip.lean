import ComponentMarkdown.Proofs.Doc.Spelling

namespace ComponentMarkdown

namespace Node

variable (emoji : Bool)

/-- A node of a line is read as nodes that spell its leaves, under any marks that may apply to it. -/
def IsSpelled [Surroundings] (node : Node) : Prop :=
  ∀ formatted marks, isCanonicalInline formatted node = true → (formatted = true ∨ marks = []) →
    marks.all Mark.wellFormed = true →
    ∃ docs, (node.reading emoji).inline marks = pure docs ∧ Spells docs (node.leaves.map (MarkedNode.under marks))

variable {emoji}

theorem inlines_spelled [Surroundings] {formatted : Bool} {nodes : List Node}
    (each : ∀ node ∈ nodes, node.IsSpelled emoji)
    (canonical : areCanonicalInline formatted nodes = true) {marks : List Mark}
    (may : formatted = true ∨ marks = []) (valid : marks.all Mark.wellFormed = true) :
    ∃ docs, Reading.inlines marks (nodes.map (reading emoji)) = pure docs ∧
      Spells docs ((leavesOf nodes).map (MarkedNode.under marks)) := by
  induction nodes with
  | nil => exact ⟨[], rfl, .nil⟩
  | cons node rest ih =>
    obtain ⟨here, _, later⟩ := areCanonicalInline_cons.1 canonical
    obtain ⟨first, others⟩ := List.forall_mem_cons.1 each
    obtain ⟨docs, read, spells⟩ := first formatted marks here may valid
    obtain ⟨docs', read', spells'⟩ := ih others later
    refine ⟨docs ++ docs', ?_, ?_⟩
    · rw [List.map_cons, Reading.inlines, read, read', pure_bind, pure_bind]
    · rw [leavesOf, List.map_append]
      exact spells.append spells'

/-- A line is written as it was read. -/
def LineRestores [Surroundings] (emoji : Bool) (nodes : List Node) : Prop :=
  ∃ docs content, Reading.line (nodes.map (reading emoji)) = pure docs ∧
    Writing.line (docs.map DocNode.writing) = pure content ∧ List.Forall₂ Alike content nodes

theorem lineRestores_of_spelled [Surroundings] {nodes : List Node} (each : ∀ node ∈ nodes, node.IsSpelled emoji)
    (canonical : isCanonicalLine nodes = true) : LineRestores emoji nodes := by
  have inline := canonical
  rw [isCanonicalLine, Bool.and_eq_true] at inline
  obtain ⟨docs, read, spells⟩ := inlines_spelled each inline.1 (Or.inr rfl) rfl
  rw [List.map_congr_left fun item _ => MarkedNode.under_nil item, List.map_id'] at spells
  obtain ⟨content, written, alike⟩ := spells.line canonical
  refine ⟨Reading.joinTexts docs, content, ?_, written, alike⟩
  rw [Reading.line, read, pure_bind]

/-- A node that is read as one node of the document and written as it was. -/
def IsKept [Surroundings] (emoji : Bool) (node : Node) (marks : List Mark) : Prop :=
  ∃ doc item, (node.reading emoji).inline marks = pure [doc] ∧ doc.marks = marks ∧
    doc.writing.inline = pure [⟨marks, item⟩] ∧ item.Alike node

theorem IsKept.spells [Surroundings] {node : Node} {marks : List Mark} (kept : node.IsKept emoji marks)
    (plain : node.mark? = none) (valid : marks.all Mark.wellFormed = true) :
    ∃ docs, (node.reading emoji).inline marks = pure docs ∧
      Spells docs (node.leaves.map (MarkedNode.under marks)) := by
  obtain ⟨doc, item, read, carried, written, alike⟩ := kept
  refine ⟨[doc], read, ?_⟩
  rw [leaves_of_unmarked plain]
  exact .single carried valid written ⟨rfl, alike⟩

section Kinds

variable {tag : String} {attrs : Attrs} {children : List Node} {marks : List Mark}

theorem lineBreak_kept [Surroundings] (meaning : TagKind.ofTag tag = .lineBreak) :
    (element tag [] []).IsKept emoji marks := by
  obtain rfl : tag = "br" := TagKind.tag_eq meaning rfl (by decide)
  refine ⟨.hardBreak marks, .element "br" [] [], ?_, rfl, ?_, Alike.refl _⟩
  · rw [inline_element (by decide)]
    rfl
  · rw [DocNode.writing_inline]
    rfl

theorem image_kept [Surroundings] (meaning : TagKind.ofTag tag = .image)
    (canonical : attrs.isCanonicalImage = true) : (element tag attrs []).IsKept emoji marks := by
  obtain rfl : tag = "img" := TagKind.tag_eq meaning rfl (by decide)
  refine ⟨.image attrs marks, .element "img" (Writing.imageAttrs attrs) [], ?_, rfl, ?_, ?_⟩
  · rw [inline_element (by decide)]
    rfl
  · rw [DocNode.writing_inline]
    rfl
  · rw [Attrs.imageAttrs_of_canonical canonical]
    exact Alike.refl _

theorem video_kept [Surroundings] (meaning : TagKind.ofTag tag = .video)
    (canonical : attrs.isCanonicalVideo = true) : (element tag attrs []).IsKept emoji marks := by
  obtain rfl : tag = "video" := TagKind.tag_eq meaning rfl (by decide)
  refine ⟨.video (Reading.videoProps attrs) marks,
    .element "video" (Writing.videoAttrs (Reading.videoProps attrs)) [], ?_, rfl, ?_, ?_⟩
  · rw [inline_element (by decide)]
    rfl
  · rw [DocNode.writing_inline]
    rfl
  · rw [Attrs.videoAttrs_videoProps canonical]
    exact Alike.refl _

theorem binding_kept [Surroundings] (meaning : TagKind.ofTag tag = .binding) (valid : attrs.wellFormed = true)
    (canonical : attrs.isCanonicalBinding = true) : (element tag attrs []).IsKept emoji marks := by
  obtain rfl : tag = "binding" := TagKind.tag_eq meaning rfl (by decide)
  have perm := Attrs.binding_perm (Attrs.distinct_of_wellFormed valid) canonical
  refine ⟨.binding (attrs.getString? "value") (attrs.get? "defaultValue") marks, .element "binding" _ [], ?_,
    rfl, ?_, .element perm .nil⟩
  · rw [inline_element (by decide)]
    rfl
  · rw [DocNode.writing_inline]
    rfl

theorem span_kept [Surroundings] (meaning : TagKind.ofTag tag = .span) (valid : attrs.wellFormed = true)
    (canonical : attrs.isCanonicalSpan = true) (line : LineRestores emoji children) :
    (element tag attrs children).IsKept emoji marks := by
  obtain rfl : tag = "span" := TagKind.tag_eq meaning rfl (by decide)
  obtain ⟨docs, content, read, written, alike⟩ := line
  have perm := Attrs.span_perm (Attrs.distinct_of_wellFormed valid) canonical
  have meaning' : TagKind.ofTag "span" = .span := by decide
  let style := Reading.takeString attrs "style"
  let class_ := Reading.takeString style.2 "class"
  refine ⟨.spanStyle style.1 class_.1 class_.2 docs marks, .element "span" _ content, ?_, rfl, ?_,
    .element perm alike⟩
  · rw [inline_element (by decide)]
    simp only [Reading.inlineElement, meaning', read, pure_bind]
    rfl
  · rw [DocNode.writing_inline]
    simp only [Writing.inlineOf, DocNode.children, written, pure_bind]
    rfl

theorem component_kept [Surroundings] (meaning : TagKind.ofTag tag = .component ∨ TagKind.ofTag tag = .template ∨
    TagKind.ofTag tag = .html) (line : LineRestores emoji children) :
    (element tag attrs children).IsKept emoji marks := by
  obtain ⟨docs, content, read, written, alike⟩ := line
  refine ⟨.inlineElement tag attrs docs marks, .element tag attrs content, ?_, rfl, ?_, .element (.refl _) alike⟩
  · rcases meaning with meaning | meaning | meaning
    all_goals
      rw [inline_element (by simp only [Reading.isBlockTag, meaning])]
      simp only [Reading.inlineElement, meaning, read, pure_bind]
  · rw [DocNode.writing_inline]
    simp only [Writing.inlineOf, DocNode.children, written, pure_bind]

theorem richLink_kept [Surroundings] (meaning : TagKind.ofTag tag = .mark .link) (valid : attrs.wellFormed = true)
    (canonical : attrs.isCanonicalLink = true) (rich : attrs.isCanonicalRichLink = true)
    (mixed : areMarkedText children = false) (line : LineRestores emoji children) :
    (element tag attrs children).IsKept emoji marks := by
  obtain rfl : tag = "a" := TagKind.ofTag_eq_mark_iff.1 meaning
  obtain ⟨docs, content, read, written, alike⟩ := line
  have perm := Attrs.richLink_perm valid canonical rich
  let href := Reading.takeString (LinkPolicy.editorAttrs attrs) "href"
  let target := Reading.takeString href.2 "target"
  let rel := Reading.takeString target.2 "rel"
  refine ⟨.link (href.1.getD "") target.1 rel.1 rel.2 docs marks, .element "a" _ content, ?_, rfl, ?_,
    .element perm alike⟩
  · rw [inline_element (by decide)]
    simp only [Reading.inlineElement, meaning, Reading.marked, map_node_map_reading, mixed, Reading.linkNode, read,
      pure_bind]
    rfl
  · rw [DocNode.writing_inline]
    simp only [Writing.inlineOf, DocNode.children, written, pure_bind]
    rfl

theorem code_spelled [Surroundings] (meaning : TagKind.ofTag tag = .mark .code) (valid : attrs.wellFormed = true)
    (only : attrs.all (fun entry => entry.1 = "language") = true) (source : isSourceText children = true)
    (marked : marks.all Mark.wellFormed = true) :
    ∃ docs, ((element tag attrs children).reading emoji).inline marks = pure docs ∧
      Spells docs ((element tag attrs children).leaves.map (MarkedNode.under marks)) := by
  obtain rfl : tag = "code" := TagKind.ofTag_eq_mark_iff.1 meaning
  obtain ⟨content, rfl, nonempty⟩ : ∃ content, children = [.text content] ∧ content ≠ "" := by
    unfold isSourceText at source
    split at source
    · exact ⟨_, rfl, by simpa using source⟩
    · exact absurd source (by simp)
  have kept := Attrs.field_of_only (Attrs.distinct_of_wellFormed valid) only
  have inner : (element "code" attrs [.text content]).mark? = some ⟨.code, attrs⟩ := rfl
  have leaf : (element "code" attrs [.text content]).leaves.map (MarkedNode.under marks) =
      [⟨⟨.code, attrs⟩ :: marks, .text content⟩] := by
    rw [leaves_of_marked inner, leavesOf, leavesOf, leaves_of_unmarked rfl]
    rfl
  have read : ((element "code" attrs [.text content]).reading emoji).inline marks =
      pure [.text content (⟨.code, attrs⟩ :: marks)] := by
    have text : Node.textOf [.text content] = content := by
      rw [textOf_cons, textOf_nil, textContent_text, String.append_empty]
    rw [inline_of_code inner rfl, text, if_neg nonempty, kept]
  refine ⟨_, read, ?_⟩
  rw [leaf]
  refine .single rfl ?_ ?_ ⟨rfl, Alike.refl _⟩
  · rw [MarkedNode.wellFormed, List.all_cons, marked, Bool.and_true]
    exact valid
  · rw [DocNode.writing_inline]
    rfl

/-- An element that is more than formatting is kept as one node. -/
theorem kept_of_unmarked [Surroundings] {formatted : Bool}
    (canonical : isCanonicalInline formatted (element tag attrs children) = true)
    (plain : (element tag attrs children).mark? = none) (each : ∀ child ∈ children, child.IsSpelled emoji) :
    (element tag attrs children).IsKept emoji marks := by
  have line := lineRestores_of_spelled each (line_of_unmarked canonical plain).2
  rw [isCanonicalInline, Bool.and_eq_true] at canonical
  obtain ⟨valid, shape⟩ := canonical
  cases meaning : TagKind.ofTag tag with
  | mark kind =>
    obtain rfl := TagKind.ofTag_eq_mark_iff.1 meaning
    rw [mark?, MarkKind.ofTag?_tag] at plain
    cases kind with
    | link =>
      have mixed : areMarkedText children = false := by simpa using plain
      rw [meaning] at shape
      simp only [Bool.and_eq_true, mixed, Bool.false_eq_true, if_false] at shape
      obtain ⟨⟨canonical, _⟩, ⟨rich, _⟩, _⟩ := shape
      exact richLink_kept meaning valid canonical rich mixed line
    | _ => cases plain
  | lineBreak =>
    rw [meaning, Bool.and_eq_true, List.isEmpty_iff, List.isEmpty_iff] at shape
    obtain ⟨rfl, rfl⟩ := shape
    exact lineBreak_kept meaning
  | image =>
    rw [meaning, Bool.and_eq_true, List.isEmpty_iff] at shape
    obtain ⟨canonical, rfl⟩ := shape
    exact image_kept meaning canonical
  | video =>
    rw [meaning, Bool.and_eq_true, List.isEmpty_iff] at shape
    obtain ⟨canonical, rfl⟩ := shape
    exact video_kept meaning canonical
  | binding =>
    rw [meaning, Bool.and_eq_true, List.isEmpty_iff] at shape
    obtain ⟨canonical, rfl⟩ := shape
    exact binding_kept meaning valid canonical
  | span =>
    rw [meaning, Bool.and_eq_true, Bool.and_eq_true] at shape
    exact span_kept meaning valid shape.1.1 line
  | component => exact component_kept (Or.inl meaning) line
  | template => exact component_kept (Or.inr (Or.inl meaning)) line
  | html => exact component_kept (Or.inr (Or.inr meaning)) line
  | _ =>
    rw [meaning] at shape
    exact absurd shape (by simp)

end Kinds

theorem isSpelled [Surroundings] (node : Node) : node.IsSpelled emoji := by
  induction node using induction with
  | text content =>
    intro formatted marks canonical _ valid
    rw [isCanonicalInline, decide_eq_true_eq] at canonical
    refine ⟨Reading.textNodes emoji content marks, by rw [reading], ?_⟩
    rw [leaves_of_unmarked rfl]
    exact .text emoji canonical valid
  | comment content =>
    intro formatted marks canonical may valid
    rw [isCanonicalInline, Bool.not_eq_true'] at canonical
    obtain rfl : marks = [] := may.resolve_left (by rw [canonical]; simp)
    refine IsKept.spells ⟨.comment content, .comment content, by rw [reading], rfl, ?_, Alike.refl _⟩ rfl valid
    rw [DocNode.writing_inline]
    rfl
  | element tag attrs children ih =>
    intro formatted marks canonical may valid
    cases marked : (element tag attrs children).mark? with
    | some mark =>
      by_cases code : mark.kind = .code
      · obtain ⟨named, _, _⟩ := mark?_eq_some marked
        have meaning : TagKind.ofTag tag = .mark .code := TagKind.ofTag_eq_mark_iff.2 (by rw [named, code])
        rw [isCanonicalInline, meaning, Bool.and_eq_true, Bool.and_eq_true] at canonical
        exact code_spelled meaning canonical.1 canonical.2.1 canonical.2.2 valid
      · obtain ⟨_, below, ok, _⟩ := formats_of_canonical canonical marked
        have valid' : (mark :: marks).all Mark.wellFormed = true := by rw [List.all_cons, ok, valid, Bool.and_true]
        obtain ⟨docs, read, spells⟩ := inlines_spelled ih below (Or.inl rfl) valid'
        refine ⟨docs, by rw [inline_of_marked marked code, read], ?_⟩
        rw [leaves_of_marked marked, List.map_map, MarkedNode.under_comp_under]
        exact spells
    | none => exact (kept_of_unmarked canonical marked ih).spells marked valid

/-- A canonical line is written as it was read. -/
theorem lineRestores [Surroundings] (emoji : Bool) {nodes : List Node} (canonical : isCanonicalLine nodes = true) :
    LineRestores emoji nodes :=
  lineRestores_of_spelled (fun node _ => node.isSpelled) canonical

end Node

end ComponentMarkdown
