import ComponentMarkdown.Proofs.Doc.BlockRoundTrip
import ComponentMarkdown.Proofs.Doc.Styled
import ComponentMarkdown.Proofs.Doc.WrittenHeadings
import ComponentMarkdown.Proofs.RoundTrip

namespace ComponentMarkdown

/-- Whether a tag is that of a heading. -/
def TagKind.isHeading (tag : String) : Bool :=
  match ofTag tag with
  | heading _ => true
  | _ => false

/-- Whether a node, if it is a heading, holds nothing but formatted text. -/
def Node.holdsOnlyText [Surroundings] : Node → Bool
  | .element tag _ children => !TagKind.isHeading tag || Node.areFormattedText children
  | _ => true

namespace DocNode

/-- Whether a node is one that markup with nothing but text in its headings is read as. -/
def comesFromMarkup : DocNode → Bool
  | heading level _ children => TagKind.isHeading ("h" ++ toString level) && children.all isPlainText
  | codeBlock _ _ children | unknown _ _ children => children.all isPlainText
  | element tag _ _ | inlineElement tag _ _ _ => !TagKind.isHeading tag
  | _ => true

theorem readAnchors_of_plainText {node : DocNode} (plain : node.isPlainText = true) : node.readAnchors = [] := by
  rw [readAnchors_eq]
  cases node with
  | text | emoji => rfl
  | _ => cases plain

theorem comesFromMarkup_of_plainText {node : DocNode} (plain : node.isPlainText = true) :
    node.everywhere comesFromMarkup = true := by
  rw [everywhere_iff]
  cases node with
  | text | emoji => exact ⟨rfl, by simp [children]⟩
  | _ => cases plain

theorem writtenTexts_text (content : String) (marks : List Mark) :
    writtenTexts [.text content marks] = content := by
  rw [writtenTexts, List.map_singleton, String.join_cons, String.join_nil, String.append_empty]
  rfl

theorem writtenTexts_append (nodes more : List DocNode) :
    writtenTexts (nodes ++ more) = writtenTexts nodes ++ writtenTexts more := by
  rw [writtenTexts, List.map_append, String.join_append, writtenTexts, writtenTexts]

theorem writtenTexts_joinTexts (nodes : List DocNode) :
    writtenTexts (Reading.joinTexts nodes) = writtenTexts nodes := by
  have chars : ∀ nodes, (writtenTexts nodes).toList = nodes.flatMap fun node => node.writtenText.toList := by
    intro nodes
    induction nodes with
    | nil => rfl
    | cons node rest ih =>
      rw [writtenTexts, List.map_cons, String.join_cons, String.toList_append,
        List.flatMap_cons, ← ih, writtenTexts]
  rw [← String.toList_inj, chars, chars, joinTexts_eq]
  refine flatMap_mergeNeighbours (fun x y z merged => ?_) nodes
  obtain ⟨content, marks, next, marks', rfl, rfl, _, rfl⟩ := joined?_eq_some merged
  exact String.toList_append

section WithLast

variable {α : Type} {isLast : α → Bool} {items : List α}

theorem withLast_of_none (none : ∀ item ∈ items, isLast item = false) : withLast isLast items = items := by
  rw [withLast, List.filter_eq_self.2 (by simpa using none), List.filter_eq_nil_iff.2 (by simpa using none),
    List.append_nil]

/-- A single item that comes last, put in anywhere. -/
theorem withLast_insert (none : ∀ item ∈ items, isLast item = false) {last : α} (moves : isLast last = true)
    (place : Nat) :
    withLast isLast (items.take place ++ last :: items.drop place) = items ++ [last] := by
  have front : ∀ item ∈ items.take place, isLast item = false :=
    fun item member => none item (List.mem_of_mem_take member)
  have back : ∀ item ∈ items.drop place, isLast item = false :=
    fun item member => none item (List.mem_of_mem_drop member)
  rw [withLast, List.filter_append, List.filter_append, List.filter_cons_of_neg (by simp [moves]),
    List.filter_cons_of_pos moves, List.filter_eq_self.2 (by simpa using front),
    List.filter_eq_self.2 (by simpa using back),
    List.filter_eq_nil_iff.2 (by simpa using front), List.filter_eq_nil_iff.2 (by simpa using back),
    List.take_append_drop, List.nil_append]

end WithLast

/-- The headings of what is read, against the anchors that are issued meanwhile. If headings hold only text, the
anchors are those of the headings in every part. -/
structure ReadAs (onlyText : Prop) (issued : List Anchor) (docs : List DocNode) : Prop where
  slugs : issued.map Anchor.slug = (docs.flatMap readAnchors).map Anchor.slug
  texts : onlyText → issued.map Anchor.text = (docs.flatMap readAnchors).map Anchor.text
  markup : onlyText → ∀ doc ∈ docs, doc.everywhere comesFromMarkup = true
  shown : ∀ doc ∈ docs, doc.isDefaultSlot = false

namespace ReadAs

variable {onlyText : Prop} {issued : List Anchor} {docs : List DocNode}

theorem nil : ReadAs onlyText [] [] := ⟨rfl, fun _ => rfl, fun _ => nofun, nofun⟩

theorem append {issued' : List Anchor} {more : List DocNode} (first : ReadAs onlyText issued docs)
    (second : ReadAs onlyText issued' more) : ReadAs onlyText (issued ++ issued') (docs ++ more) where
  slugs := by rw [List.map_append, List.flatMap_append, List.map_append, first.slugs, second.slugs]
  texts only := by rw [List.map_append, List.flatMap_append, List.map_append, first.texts only, second.texts only]
  markup only := List.forall_mem_append.2 ⟨first.markup only, second.markup only⟩
  shown := List.forall_mem_append.2 ⟨first.shown, second.shown⟩

theorem plainText (plain : docs.all isPlainText = true) : ReadAs onlyText [] docs := by
  rw [List.all_eq_true] at plain
  have none : docs.flatMap readAnchors = [] :=
    List.flatMap_eq_nil_iff.2 fun doc member => readAnchors_of_plainText (plain doc member)
  refine ⟨by rw [none], fun _ => by rw [none],
    fun _ doc member => comesFromMarkup_of_plainText (plain doc member), fun doc member => ?_⟩
  have text := plain doc member
  cases doc with
  | slot => cases text
  | _ => rfl

/-- Joining texts leaves headings alone. -/
theorem joinTexts (read : ReadAs onlyText issued docs) : ReadAs onlyText issued (Reading.joinTexts docs) := by
  have same : (Reading.joinTexts docs).flatMap readAnchors = docs.flatMap readAnchors := by
    rw [joinTexts_eq]
    refine flatMap_mergeNeighbours (fun x y z merged => ?_) docs
    obtain ⟨_, _, _, _, rfl, rfl, _, rfl⟩ := joined?_eq_some merged
    rfl
  refine ⟨by rw [same, read.slugs], fun only => by rw [same, read.texts only], fun only => ?_, ?_⟩
  · rw [joinTexts_eq]
    refine forall_mergeNeighbours (fun x y z _ _ merged => ?_) (read.markup only)
    obtain ⟨_, _, _, _, _, _, _, rfl⟩ := joined?_eq_some merged
    exact comesFromMarkup_of_plainText rfl
  · rw [joinTexts_eq]
    refine forall_mergeNeighbours (fun x y z _ _ merged => ?_) read.shown
    obtain ⟨_, _, _, _, _, _, _, rfl⟩ := joined?_eq_some merged
    rfl

/-- A node that is no heading, around what it was read from. -/
theorem around {node : DocNode} (content : ReadAs onlyText issued node.children) (noHeading : node.anchor? = none)
    (order : node.readOrder = node.children) (markup : node.comesFromMarkup = true)
    (shown : node.isDefaultSlot = false) :
    ReadAs onlyText issued [node] := by
  have same : [node].flatMap readAnchors = node.children.flatMap readAnchors := by
    rw [List.flatMap_singleton, readAnchors_eq, noHeading, order]
    rfl
  refine ⟨by rw [same, content.slugs], fun only => by rw [same, content.texts only], fun only => ?_,
    List.forall_mem_singleton.2 shown⟩
  exact List.forall_mem_singleton.2 (everywhere_iff.2 ⟨markup, content.markup only⟩)

/-- A heading gets its anchor before what is in it. -/
theorem heading {level : Nat} {text slug : String} (content : ReadAs onlyText issued docs)
    (tagged : TagKind.isHeading ("h" ++ toString level) = true)
    (named : onlyText → docs.all isPlainText = true ∧ text = writtenTexts docs) :
    ReadAs onlyText (⟨text, slug⟩ :: issued) [.heading level slug docs] := by
  have same : [DocNode.heading level slug docs].flatMap readAnchors =
      ⟨writtenTexts docs, slug⟩ :: docs.flatMap readAnchors := by
    rw [List.flatMap_singleton, readAnchors_eq]
    rfl
  refine ⟨?_, fun only => ?_, fun only => ?_, List.forall_mem_singleton.2 rfl⟩
  · rw [same, List.map_cons, List.map_cons, content.slugs]
  · rw [same, List.map_cons, List.map_cons, content.texts only, (named only).2]
  · refine List.forall_mem_singleton.2 (everywhere_iff.2 ⟨?_, content.markup only⟩)
    rw [comesFromMarkup, tagged, (named only).1]
    rfl

/-- A component around its slots only. -/
theorem named {tag : String} {attrs : Attrs} (plain : TagKind.isHeading tag = false)
    (slots : ReadAs onlyText issued docs) : ReadAs onlyText issued [.element tag attrs docs] :=
  slots.around rfl (withLast_of_none slots.shown) (by rw [comesFromMarkup, plain]; rfl) rfl

/-- The content that stands outside of the slots of a component is read last, wherever it stands. -/
theorem withBare {tag : String} {attrs : Attrs} {issued' : List Anchor} {bare : List DocNode}
    (plain : TagKind.isHeading tag = false) (slots : ReadAs onlyText issued docs)
    (content : ReadAs onlyText issued' bare)
    (place : Nat) :
    ReadAs onlyText (issued ++ issued')
      [.element tag attrs (docs.take place ++ .slot "default" [] true bare :: docs.drop place)] := by
  have slot : (DocNode.slot "default" [] true bare).readAnchors = bare.flatMap readAnchors := by
    rw [readAnchors_eq]
    rfl
  have same :
      [DocNode.element tag attrs (docs.take place ++ .slot "default" [] true bare :: docs.drop place)].flatMap
        readAnchors = docs.flatMap readAnchors ++ bare.flatMap readAnchors := by
    rw [List.flatMap_singleton, readAnchors_eq, readOrder, withLast_insert slots.shown rfl, List.flatMap_append,
      List.flatMap_singleton, slot]
    rfl
  refine ⟨?_, fun only => ?_, fun only => ?_, List.forall_mem_singleton.2 rfl⟩
  · rw [same, List.map_append, List.map_append, slots.slugs, content.slugs]
  · rw [same, List.map_append, List.map_append, slots.texts only, content.texts only]
  · have inside : (DocNode.slot "default" [] true bare).everywhere comesFromMarkup = true :=
      everywhere_iff.2 ⟨rfl, content.markup only⟩
    refine List.forall_mem_singleton.2 (everywhere_iff.2 ⟨by rw [comesFromMarkup, plain]; rfl, ?_⟩)
    refine List.forall_mem_append.2 ⟨fun doc member => slots.markup only doc (List.mem_of_mem_take member), ?_⟩
    exact List.forall_mem_cons.2 ⟨inside, fun doc member => slots.markup only doc (List.mem_of_mem_drop member)⟩

end ReadAs

end DocNode

namespace Reading

open DocNode (ReadAs writtenTexts writtenTexts_text writtenTexts_append)

theorem textNodes_plainText [Surroundings] (emoji : Bool) (content : String) (marks : List Mark) :
    (textNodes emoji content marks).all DocNode.isPlainText = true ∧
      writtenTexts (textNodes emoji content marks) = content := by
  by_cases empty : content = ""
  · subst empty
    exact ⟨rfl, rfl⟩
  cases emoji with
  | false =>
    rw [textNodes_false empty]
    exact ⟨rfl, writtenTexts_text _ _⟩
  | true =>
    rw [textNodes_true empty]
    have written : ∀ piece : Shortcode.Piece, (piece.docNode marks).writtenText = String.ofList piece.source := by
      intro piece
      cases piece with
      | plain text => rfl
      | emoji name glyph =>
        rw [Shortcode.Piece.ofList_source_emoji]
        rfl
    constructor
    · rw [List.all_map, List.all_eq_true]
      intro piece _
      cases piece <;> rfl
    · rw [writtenTexts, List.map_map]
      refine (congrArg String.join (List.map_congr_left fun piece _ => written piece)).trans ?_
      rw [Shortcode.join_sources, Shortcode.split_source, String.ofList_toList]

/-- Lines of formatted text are read as nothing but text, the same one. -/
theorem inlines_plainText [Surroundings] {emoji : Bool} {nodes : List Node} {marks : List Mark}
    (each : ∀ node ∈ nodes, ∃ docs, (node.reading emoji).inline marks = pure docs ∧
      docs.all DocNode.isPlainText = true ∧ writtenTexts docs = node.textContent) :
    ∃ docs, inlines marks (nodes.map (Node.reading emoji)) = pure docs ∧ docs.all DocNode.isPlainText = true ∧
      writtenTexts docs = Node.textOf nodes := by
  induction nodes with
  | nil => exact ⟨[], rfl, rfl, by rw [Node.textOf_nil]; rfl⟩
  | cons node rest ih =>
    obtain ⟨here, below⟩ := List.forall_mem_cons.1 each
    obtain ⟨docs, read, plain, same⟩ := here
    obtain ⟨docs', read', plain', same'⟩ := ih below
    refine ⟨docs ++ docs', ?_, by rw [List.all_append, plain, plain']; rfl, ?_⟩
    · rw [List.map_cons, inlines, read, read', pure_bind, pure_bind]
    · rw [writtenTexts_append, same, same', Node.textOf_cons]

theorem inline_plainText [Surroundings] (emoji : Bool) (node : Node) (formatted : node.isFormattedText = true)
    (marks : List Mark) :
    ∃ docs, (node.reading emoji).inline marks = pure docs ∧ docs.all DocNode.isPlainText = true ∧
      writtenTexts docs = node.textContent := by
  induction node using Node.induction generalizing marks with
  | text content =>
    refine ⟨_, by rw [Node.reading], ?_⟩
    rw [Node.textContent_text]
    exact textNodes_plainText emoji content marks
  | comment =>
    rw [Node.isFormattedText] at formatted
    cases formatted
  | element tag attrs children ih =>
    rw [Node.isFormattedText] at formatted
    cases marked : (Node.element tag attrs children).mark? with
    | none =>
      rw [marked] at formatted
      cases formatted
    | some mark =>
      rw [marked] at formatted
      have shown : tag ≠ "style" := by
        obtain ⟨rfl, _⟩ := Node.mark?_eq_some marked
        cases mark.kind <;> decide
      rw [Node.textContent_element shown]
      by_cases code : mark.kind = .code
      · refine ⟨_, Node.inline_of_code marked code emoji marks, ?_⟩
        split
        · rename_i empty
          exact ⟨rfl, by rw [empty]; rfl⟩
        · exact ⟨rfl, writtenTexts_text _ _⟩
      · simp only [code, decide_false, Bool.false_or] at formatted
        rw [Node.areFormattedText_iff] at formatted
        rw [Node.inline_of_marked marked code]
        exact inlines_plainText fun child member => ih child member (formatted child member) _

/-- The line of a heading of formatted text. -/
theorem line_plainText [Surroundings] (emoji : Bool) {nodes : List Node}
    (formatted : Node.areFormattedText nodes = true) :
    Slugged.Gives (fun docs => docs.all DocNode.isPlainText = true ∧ Node.textOf nodes = writtenTexts docs)
      (line (nodes.map (Node.reading emoji))) := by
  rw [Node.areFormattedText_iff] at formatted
  obtain ⟨docs, read, plain, same⟩ := inlines_plainText fun node member =>
    inline_plainText emoji node (formatted node member) []
  rw [line, read, pure_bind]
  refine .pure ⟨?_, by rw [DocNode.writtenTexts_joinTexts, same]⟩
  rw [List.all_eq_true] at plain ⊢
  rw [DocNode.joinTexts_eq]
  refine forall_mergeNeighbours (fun x y z _ _ merged => ?_) plain
  obtain ⟨_, _, _, _, _, _, _, rfl⟩ := DocNode.joined?_eq_some merged
  rfl

end Reading

namespace Node

/-- The headings of a node are accounted for, inside a line and among blocks. -/
structure ReadsHeadings [Surroundings] (onlyText : Prop) (emoji : Bool) (node : Node) : Prop where
  inline (marks : List Mark) : Slugged.Traces (DocNode.ReadAs onlyText) ((node.reading emoji).inline marks)
  block : Slugged.Traces (fun issued doc => DocNode.ReadAs onlyText issued doc.toList) (node.reading emoji).block

end Node

namespace Reading

open DocNode (ReadAs)

section Lists

variable [Surroundings] {onlyText : Prop} {emoji : Bool} {nodes : List Node}
  (reads : ∀ node ∈ nodes, node.ReadsHeadings onlyText emoji)

include reads

theorem inlines_readsHeadings (marks : List Mark) :
    Slugged.Traces (ReadAs onlyText) (inlines marks (nodes.map (Node.reading emoji))) := by
  induction nodes with
  | nil => exact .pure .nil
  | cons node rest ih =>
    obtain ⟨here, below⟩ := List.forall_mem_cons.1 reads
    rw [List.map_cons, inlines]
    refine (here.inline marks).bind fun issued docs first => (ih below).bind fun issued' tail later => .pure ?_
    rw [List.append_nil]
    exact first.append later

theorem line_readsHeadings : Slugged.Traces (ReadAs onlyText) (line (nodes.map (Node.reading emoji))) := by
  refine (inlines_readsHeadings reads []).bind fun issued docs read => .pure ?_
  rw [List.append_nil]
  exact read.joinTexts

theorem paragraph_readsHeadings :
    Slugged.Traces (ReadAs onlyText) (paragraph (nodes.map (Node.reading emoji))) := by
  rw [paragraph]
  split
  · exact .pure .nil
  · refine (line_readsHeadings reads).bind fun issued docs read => .pure ?_
    rw [List.append_nil]
    exact read.around rfl rfl rfl rfl

/-- What waits to be read as a line is read before the next block. -/
theorem blocksFrom_readsHeadings {waiting : List Node}
    (inFront : ∀ node ∈ waiting, node.ReadsHeadings onlyText emoji)
    (before : Option Node) : Slugged.Traces (ReadAs onlyText)
      (blocksFrom (waiting.map (Node.reading emoji)) before (nodes.map (Node.reading emoji))) := by
  induction nodes generalizing waiting before with
  | nil =>
    rw [List.map_nil, blocksFrom]
    exact paragraph_readsHeadings inFront
  | cons node rest ih =>
    obtain ⟨here, below⟩ := List.forall_mem_cons.1 reads
    rw [List.map_cons, blocksFrom]
    split
    · have longer := ih below (List.forall_mem_append.2 ⟨inFront, List.forall_mem_singleton.2 here⟩)
        (some (node.reading emoji).node)
      rwa [List.map_append, List.map_singleton] at longer
    · refine (paragraph_readsHeadings inFront).bind fun issued first line => ?_
      refine here.block.bind fun issued' block read => ?_
      refine (@ih below [] (List.forall_mem_nil _) _).bind fun issued'' tail later => .pure ?_
      rw [List.append_nil, ← List.append_assoc]
      exact (line.append read).append later

theorem blocks_readsHeadings : Slugged.Traces (ReadAs onlyText) (blocks (nodes.map (Node.reading emoji))) :=
  @blocksFrom_readsHeadings _ onlyText emoji nodes reads [] (List.forall_mem_nil _) none

theorem eachBlock_readsHeadings :
    Slugged.Traces (ReadAs onlyText) (eachBlock (nodes.map (Node.reading emoji))) := by
  induction nodes with
  | nil => exact .pure .nil
  | cons node rest ih =>
    obtain ⟨here, below⟩ := List.forall_mem_cons.1 reads
    rw [List.map_cons, eachBlock]
    refine here.block.bind fun issued block read => (ih below).bind fun issued' tail later => .pure ?_
    rw [List.append_nil]
    exact read.append later

theorem listItems_readsHeadings :
    Slugged.Traces (ReadAs onlyText) (listItems (nodes.map (Node.reading emoji))) := by
  induction nodes with
  | nil => exact .pure .nil
  | cons node rest ih =>
    obtain ⟨here, below⟩ := List.forall_mem_cons.1 reads
    have item : Slugged.Traces (ReadAs onlyText) (listItem (node.reading emoji)) := by
      rw [listItem]
      split
      · refine here.block.bind fun issued block read => .pure ?_
        rwa [List.append_nil]
      · split
        · exact .pure .nil
        · refine (blocks_readsHeadings (List.forall_mem_singleton.2 here)).bind fun issued docs read => .pure ?_
          rw [List.append_nil]
          exact read.around rfl rfl rfl rfl
    rw [List.map_cons, listItems]
    refine item.bind fun issued first read => (ih below).bind fun issued' tail later => .pure ?_
    rw [List.append_nil]
    exact read.append later

/-- In a component, what stands in slots is read before what stands outside of them. -/
theorem slots_readsHeadings {tag : String} (plain : TagKind.isHeading tag = false) (attrs : Attrs) :
    Slugged.Traces (fun issued docs => ReadAs onlyText issued [.element tag attrs docs])
      (slots (nodes.map (Node.reading emoji))) := by
  have part : ∀ keep : Reading → Bool, (nodes.map (Node.reading emoji)).filter keep =
      (nodes.filter (keep ∘ Node.reading emoji)).map (Node.reading emoji) := fun keep => List.filter_map
  have readsPart : ∀ keep, ∀ node ∈ nodes.filter keep, node.ReadsHeadings onlyText emoji :=
    fun keep node member => reads node (List.mem_of_mem_filter member)
  simp only [slots, part]
  refine (eachBlock_readsHeadings (readsPart _)).bind fun issued named slots => ?_
  split
  · refine .pure ?_
    rw [List.append_nil]
    exact slots.named plain
  · refine (blocks_readsHeadings (readsPart _)).bind fun issued' content bare => .pure ?_
    rw [List.append_nil]
    exact slots.withBare plain bare _

end Lists

section Element

theorem isHeading_eq_false {tag : String} {kind : TagKind} (meaning : TagKind.ofTag tag = kind)
    (plain : ∀ level, kind ≠ .heading level) : TagKind.isHeading tag = false := by
  rw [TagKind.isHeading, meaning]
  split
  · rename_i level
    exact absurd rfl (plain level)
  · rfl

variable [Surroundings] {onlyText : Prop} {emoji : Bool} {tag : String} {attrs : Attrs} {children : List Node}
  (reads : ∀ child ∈ children, child.ReadsHeadings onlyText emoji)

include reads

/-- An element inside a line, around what is read of its children as a line. -/
theorem around_readsHeadings {doc : List DocNode → DocNode} (inside : ∀ docs, (doc docs).children = docs)
    (noHeading : ∀ docs, (doc docs).anchor? = none) (order : ∀ docs, (doc docs).readOrder = docs)
    (markup : ∀ docs, (doc docs).comesFromMarkup = true) (shown : ∀ docs, (doc docs).isDefaultSlot = false) :
    Slugged.Traces (ReadAs onlyText) (do return [doc (← line (children.map (Node.reading emoji)))]) := by
  refine (line_readsHeadings reads).bind fun issued docs read => .pure ?_
  rw [List.append_nil]
  refine ReadAs.around ?_ (noHeading docs) (by rw [order, inside]) (markup docs) (shown docs)
  rwa [inside]

theorem marked_readsHeadings (kind : MarkKind) (marks : List Mark) :
    Slugged.Traces (ReadAs onlyText) (marked kind attrs (children.map (Node.reading emoji)) marks) := by
  cases kind with
  | code =>
    rw [marked, codeText]
    split
    · exact .pure .nil
    · exact .pure (.plainText rfl)
  | link =>
    rw [marked]
    split
    · exact inlines_readsHeadings reads _
    · simp only [linkNode, bind_assoc, pure_bind]
      exact around_readsHeadings reads (fun _ => rfl) (fun _ => rfl) (fun _ => rfl) (fun _ => rfl) fun _ => rfl
  | bold | italic | strike => exact inlines_readsHeadings reads _

theorem inlineElement_readsHeadings (marks : List Mark) :
    Slugged.Traces (ReadAs onlyText) (inlineElement tag attrs (children.map (Node.reading emoji)) marks) := by
  have leaf : ∀ doc : DocNode, doc.children = [] → doc.anchor? = none → doc.readOrder = [] →
      doc.comesFromMarkup = true → doc.isDefaultSlot = false → Slugged.Traces (ReadAs onlyText) (pure [doc]) := by
    intro doc empty noHeading order markup shown
    exact .pure (.around (by rw [empty]; exact .nil) noHeading (by rw [order, empty]) markup shown)
  rw [inlineElement]
  cases meaning : TagKind.ofTag tag with
  | mark kind => exact marked_readsHeadings reads kind marks
  | lineBreak | image | video | binding => exact leaf _ rfl rfl rfl rfl rfl
  | span =>
    exact around_readsHeadings reads (fun _ => rfl) (fun _ => rfl) (fun _ => rfl) (fun _ => rfl) fun _ => rfl
  | component | template | html =>
    have plain := isHeading_eq_false meaning (by simp)
    exact around_readsHeadings reads (fun _ => rfl) (fun _ => rfl) (fun _ => rfl)
      (fun _ => by rw [DocNode.comesFromMarkup, plain]; rfl) fun _ => rfl
  | _ => exact .pure .nil

theorem blockElement_readsHeadings (text : onlyText → (Node.element tag attrs children).holdsOnlyText = true) :
    Slugged.Traces (fun issued doc => ReadAs onlyText issued doc.toList)
      (blockElement tag attrs (children.map (Node.reading emoji))) := by
  have lines := line_readsHeadings reads
  have blocks := blocks_readsHeadings reads
  have items := listItems_readsHeadings reads
  have around : ∀ {content : Slugged (List DocNode)} (doc : List DocNode → DocNode),
      Slugged.Traces (ReadAs onlyText) content → (∀ docs, (doc docs).children = docs) →
      (∀ docs, (doc docs).anchor? = none) → (∀ docs, (doc docs).readOrder = docs) →
      (∀ docs, (doc docs).comesFromMarkup = true) → (∀ docs, (doc docs).isDefaultSlot = false) →
      Slugged.Traces (fun issued doc => ReadAs onlyText issued doc.toList) (do return some (doc (← content))) := by
    intro content doc reads inside noHeading order markup shown
    refine reads.bind fun issued docs read => .pure ?_
    rw [List.append_nil]
    refine ReadAs.around ?_ (noHeading docs) (by rw [order, inside]) (markup docs) (shown docs)
    rwa [inside]
  simp only [blockElement, Node.map_node_map_reading]
  cases meaning : TagKind.ofTag tag with
  | paragraph => exact around _ lines (fun _ => rfl) (fun _ => rfl) (fun _ => rfl) (fun _ => rfl) fun _ => rfl
  | heading level =>
    have tagged : TagKind.isHeading tag = true := by rw [TagKind.isHeading, meaning]
    have named : Slugged.Gives (fun docs => onlyText → docs.all DocNode.isPlainText = true ∧
        Node.textOf children = DocNode.writtenTexts docs) (line (children.map (Node.reading emoji))) := by
      by_cases only : onlyText
      · have formatted :
            Node.areFormattedText children = true := by simpa [Node.holdsOnlyText, tagged] using text only
        exact (line_plainText emoji formatted).weaken fun docs same _ => same
      · exact (Slugged.Gives.any _).weaken fun docs _ yes => absurd yes only
    refine (Slugged.Traces.issue _).bind fun anchors slug single => ?_
    refine (lines.and_gives named).bind fun issued docs both => .pure ?_
    obtain ⟨read, same⟩ := both
    rw [single, List.append_nil]
    exact read.heading (by rwa [← TagKind.heading_tag meaning]) same
  | bulletList => exact around _ items (fun _ => rfl) (fun _ => rfl) (fun _ => rfl) (fun _ => rfl) fun _ => rfl
  | orderedList => exact around _ items (fun _ => rfl) (fun _ => rfl) (fun _ => rfl) (fun _ => rfl) fun _ => rfl
  | listItem => exact around _ blocks (fun _ => rfl) (fun _ => rfl) (fun _ => rfl) (fun _ => rfl) fun _ => rfl
  | blockquote => exact around _ blocks (fun _ => rfl) (fun _ => rfl) (fun _ => rfl) (fun _ => rfl) fun _ => rfl
  | template =>
    simp only [slot, bind_assoc, pure_bind]
    exact around (.slot _ _ false) blocks (fun _ => rfl) (fun _ => rfl) (fun _ => rfl) (fun _ => rfl) fun _ => rfl
  | component =>
    have slots := slots_readsHeadings reads (isHeading_eq_false meaning (by simp)) attrs
    refine slots.bind fun issued docs read => .pure ?_
    rwa [List.append_nil]
  | horizontalRule => exact .pure (.around .nil rfl rfl rfl rfl)
  | codeBlock =>
    have source : ∀ code, (if code = "" then [] else [DocNode.text code []]).all DocNode.isPlainText = true := by
      intro code
      split <;> rfl
    exact .pure (.around (.plainText (source _)) rfl rfl (source _) rfl)
  | html =>
    have plain := isHeading_eq_false meaning (by simp)
    exact .pure (.named plain (.plainText rfl))
  | style => exact .pure .nil
  | lineBreak | image | video | span | binding | mark kind =>
    refine (inlineElement_readsHeadings reads []).bind fun issued docs read => .pure ?_
    rw [List.append_nil]
    exact read.joinTexts.around rfl rfl rfl rfl

end Element

end Reading

namespace Node

theorem readsHeadings [Surroundings] {onlyText : Prop} (emoji : Bool) {node : Node}
    (text : onlyText → ∀ inner ∈ node.inOrder, inner.holdsOnlyText = true) : node.ReadsHeadings onlyText emoji := by
  induction node using induction with
  | text content =>
    refine ⟨fun marks => ?_, ?_⟩
    · rw [reading]
      exact .pure (.plainText (Reading.textNodes_plainText emoji content marks).1)
    · rw [reading]
      exact .pure (.plainText rfl)
  | comment content =>
    refine ⟨fun marks => ?_, ?_⟩
    · rw [reading]
      exact .pure (.around .nil rfl rfl rfl rfl)
    · rw [reading]
      exact .pure (.around .nil rfl rfl rfl rfl)
  | element tag attrs children ih =>
    rw [inOrder_element] at text
    have reads : ∀ child ∈ children, child.ReadsHeadings onlyText emoji := fun child member =>
      ih child member fun only inner inside =>
        (List.forall_mem_cons.1 (text only)).2 inner (List.mem_flatMap.2 ⟨child, member, inside⟩)
    have block := @Reading.blockElement_readsHeadings _ onlyText emoji tag attrs children reads fun only =>
      (List.forall_mem_cons.1 (text only)).1
    refine ⟨fun marks => ?_, ?_⟩
    · rw [reading_element, Reading.ofElement]
      by_cases outside : Reading.isBlockTag tag = true
      · simp only [outside, if_true]
        refine block.bind fun issued doc read => .pure ?_
        rwa [List.append_nil]
      · simp only [outside, Bool.false_eq_true, if_false]
        exact Reading.inlineElement_readsHeadings reads marks
    · rw [block_element]
      exact block

end Node

namespace Doc

/-- The headings of the document of a tree, against the anchors that are issued while it is read. -/
theorem ofTree_headings [Surroundings] {onlyText : Prop} (tree : Tree) (emoji : Bool)
    (text : onlyText → ∀ node ∈ tree.nodes.flatMap Node.inOrder, node.holdsOnlyText = true) :
    ∃ issued, DocNode.ReadAs onlyText issued (ofTree tree emoji).content ∧ SlugRegistry.empty.Issued issued := by
  have reads : ∀ node ∈ tree.nodes, node.ReadsHeadings onlyText emoji := fun node member =>
    Node.readsHeadings emoji fun only inner inside => text only inner (List.mem_flatMap.2 ⟨node, member, inside⟩)
  obtain ⟨issued, read, order, _⟩ := Reading.blocks_readsHeadings reads .empty
  obtain ⟨data, error, first⟩ := frontmatterNode_eq tree
  have front : DocNode.ReadAs onlyText [] [.frontmatter data error tree.metadata] := .around .nil rfl rfl rfl rfl
  refine ⟨issued, ?_, order⟩
  rw [ofTree_eq, first]
  exact front.append read

end Doc

end ComponentMarkdown
