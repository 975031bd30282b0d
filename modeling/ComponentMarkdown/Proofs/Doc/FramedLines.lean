import ComponentMarkdown.Proofs.Doc.Frames
import ComponentMarkdown.Proofs.Doc.Shortcodes
import ComponentMarkdown.Proofs.Doc.Styled

namespace ComponentMarkdown

namespace Found

/-- Things that are found in another order, which only those on a page may be in. -/
def Moved (page : Bool) (found moved : List Found) : Prop := if page then found.Perm moved else found = moved

namespace Moved

variable {page : Bool} {found moved : List Found}

theorem refl (found : List Found) : Moved page found found := by
  cases page
  · exact rfl
  · exact List.Perm.refl found

theorem trans {moved' : List Found} (first : Moved page found moved) (second : Moved page moved moved') :
    Moved page found moved' := by
  cases page
  · exact Eq.trans first second
  · exact List.Perm.trans first second

theorem append {more more' : List Found} (first : Moved page found moved) (second : Moved page more more') :
    Moved page (found ++ more) (moved ++ more') := by
  cases page
  · exact congrArg₂ (· ++ ·) first second
  · exact List.Perm.append first second

theorem around (move : Moved page found moved) (tag : String) (attrs : Attrs) (content : String) :
    Moved page (Found.around page tag attrs content found) (Found.around page tag attrs content moved) := by
  cases page
  · exact congrArg _ move
  · have move : found.Perm moved := move
    have outer : ∀ {found moved : List Found} (frame : Frame), found.Perm moved →
        (found.map (under [frame])).Perm (moved.map (under [frame])) := fun _ move => move.map _
    change (Found.around true tag attrs content found).Perm (Found.around true tag attrs content moved)
    rw [Found.around, Found.around, move.any_eq]
    split
    · exact outer _ (move.cons _)
    · split
      · exact outer _ (move.cons _)
      · exact outer _ move
    all_goals first | exact List.Perm.refl _ | exact move

end Moved

section Around

variable [Surroundings] {page : Bool} {attrs : Attrs} {moved written : List Found}

theorem around_span_returns (valid : attrs.wellFormed = true) (inside : List.Forall₂ Returns moved written)
    (content content' : String) : List.Forall₂ Returns (around page "span" attrs content moved)
      (around page "span" attrs.spanThroughEditor content' written) :=
  map_under_returns (.cons (Attrs.spanReturns valid) .nil) (.cons ⟨rfl, .nil⟩ inside)

theorem around_link_returns (valid : attrs.wellFormed = true) (inside : List.Forall₂ Returns moved written)
    (content content' : String) : List.Forall₂ Returns (around page "a" attrs content moved)
      (around page "a" attrs.linkThroughEditor content' written) := by
  have pictured := any_isImage_eq Returns.isImage inside
  cases image : moved.any isImage with
  | true =>
    have opened : ∀ {inside : List Found}, inside.any isImage = true → ∀ attrs content,
        around page "a" attrs content inside = (⟨.link, []⟩ :: inside).map (under [.link true attrs]) :=
      fun image _ _ => if_pos image
    rw [opened image, opened (pictured.symm.trans image)]
    exact map_under_returns (.cons (Attrs.linkReturns valid) .nil) (.cons ⟨rfl, .nil⟩ inside)
  | false =>
    rw [around_link image, around_link (pictured.symm.trans image)]
    exact map_under_returns (.cons ⟨_, Or.inl rfl, Or.inl rfl⟩ .nil) inside

end Around

/-- Nodes that are written with what was found: it is found again in a line of which they are joined. -/
def IsKept [Surroundings] (page : Bool) (found : List Found) (nodes : List Node) : Prop :=
  ∃ moved line, Moved page found moved ∧ List.Forall₂ Returns moved (line.flatMap (Node.found page)) ∧
    Node.Joins true line nodes

namespace IsKept

variable [Surroundings] {page : Bool} {found more : List Found} {nodes next : List Node}

theorem nil : IsKept page [] [] := ⟨[], [], .refl [], .nil, .refl []⟩

theorem append (first : IsKept page found nodes) (second : IsKept page more next) :
    IsKept page (found ++ more) (nodes ++ next) := by
  obtain ⟨moved, line, move, returns, joins⟩ := first
  obtain ⟨moved', line', move', returns', joins'⟩ := second
  refine ⟨moved ++ moved', line ++ line', move.append move', ?_, joins.append joins'⟩
  rw [List.flatMap_append]
  exact List.rel_append returns returns'

theorem of_moved {moved : List Found} (move : Moved page found moved) (kept : IsKept page moved nodes) :
    IsKept page found nodes := by
  obtain ⟨moved', line, move', returns, joins⟩ := kept
  exact ⟨moved', line, move.trans move', returns, joins⟩

/-- An element is written around what was found in it, if what it is itself comes back. -/
theorem around (inside : IsKept page found nodes) {tag : String} (line : Node.holdsLine tag = true)
    {attrs attrs' : Attrs}
    (content : String) (comes : ∀ moved written content', List.Forall₂ Returns moved written →
      List.Forall₂ Returns (Found.around page tag attrs content moved)
        (Found.around page tag attrs' content' written)) :
    IsKept page (Found.around page tag attrs content found) [.element tag attrs' nodes] := by
  obtain ⟨moved, whole, move, returns, joins⟩ := inside
  rw [← line] at joins
  refine ⟨_, [.element tag attrs' whole], move.around tag attrs content, ?_, joins.around attrs'⟩
  rw [List.flatMap_singleton, Node.found_element]
  exact comes _ _ _ returns

end IsKept

end Found

namespace MarkedNode

open ComponentMarkdown.Found (Moved Returns IsKept)

/-- Nodes of a line that are written with what was found, before their marks are elements. -/
def AreKept [Surroundings] (page : Bool) (found : List Found) (items : List MarkedNode) : Prop :=
  ∃ moved line, Moved page found moved ∧
    List.Forall₂ Returns moved (line.flatMap fun item => item.alone.found page) ∧
    (∀ item ∈ line, item.Fits page) ∧ List.Forall₂ (Related Node.JoinedInside) line items

namespace AreKept

variable [Surroundings] {page : Bool} {found more : List Found} {items items' : List MarkedNode} {marks : List Mark}

theorem nil : AreKept page [] [] := ⟨[], [], .refl [], .nil, List.forall_mem_nil _, .nil⟩

theorem append (first : AreKept page found items) (second : AreKept page more items') :
    AreKept page (found ++ more) (items ++ items') := by
  obtain ⟨moved, line, move, returns, fits, related⟩ := first
  obtain ⟨moved', line', move', returns', fits', related'⟩ := second
  refine ⟨moved ++ moved', line ++ line', move.append move', ?_, List.forall_mem_append.2 ⟨fits, fits'⟩,
    List.rel_append related related'⟩
  rw [List.flatMap_append]
  exact List.rel_append returns returns'

/-- What is found in a line is found again when the line is written. -/
theorem line (kept : AreKept page found items) :
    IsKept page found (Node.joinSplitMarks (nest (coalesce items))) := by
  obtain ⟨moved, line, move, returns, fits, related⟩ := kept
  obtain ⟨fits', joined⟩ := coalesce_found fits
  have nested := forall₂_trans Found.Alike.trans (nest_found fits') joined
  exact ⟨moved, _, move, forall₂_trans (S := flip Found.Alike) Returns.alike returns nested.flip,
    joins_line related⟩

/-- Texts under the same marks. -/
theorem texts {outer : List Frame} (valid : marks.all Mark.wellFormed = true)
    (frames : List.Forall₂ Frame.Returns outer (Frame.ofMarks marks)) (texts : List String) :
    AreKept page ((Found.ofText page (String.join texts)).map (Found.under outer))
      (texts.map fun s => ⟨marks, .text s⟩) := by
  refine ⟨_, _, .refl _, ?_, List.forall_mem_map.2 fun s _ => .text valid s,
    List.forall₂_same.2 fun _ _ => ⟨rfl, .refl _⟩⟩
  rw [List.flatMap_map]
  induction texts with
  | nil =>
    rw [String.join_nil]
    cases page <;> exact .nil
  | cons s rest ih =>
    rw [String.join_cons, Found.ofText_append, List.map_append, List.flatMap_cons, found_alone_text]
    exact List.rel_append (Found.map_under_returns frames (Found.ofText_returns page s)) ih

variable (valid : marks.all Mark.wellFormed = true)
  (shown : ∀ mark ∈ marks, ¬ (mark.kind = .link ∨ mark.kind = .code))

include valid shown

/-- A node under marks that hide nothing of it. -/
theorem single {node node' : Node} {moved : List Found} (move : Moved page found moved)
    (returns : List.Forall₂ Returns moved (node.found page)) (joined : node.JoinedInside node') :
    AreKept page found [⟨marks, node'⟩] := by
  refine ⟨moved, [⟨marks, node⟩], move, ?_, List.forall_mem_singleton.2 ⟨valid, fun ⟨mark, member, link⟩ => ?_⟩,
    .cons ⟨rfl, joined⟩ .nil⟩
  · rw [List.flatMap_singleton, found_alone _ shown]
    exact returns
  · exact absurd (Or.inl link) (shown mark member)

/-- An element under marks that hide nothing of it, around what was found in it. -/
theorem around {tag : String} {attrs attrs' : Attrs} {nodes : List Node} (inside : IsKept page found nodes)
    (line : Node.holdsLine tag = true) (content : String)
    (comes : ∀ moved written content', List.Forall₂ Returns moved written →
      List.Forall₂ Returns (Found.around page tag attrs content moved)
        (Found.around page tag attrs' content' written)) :
    AreKept page (Found.around page tag attrs content found) [⟨marks, .element tag attrs' nodes⟩] := by
  obtain ⟨moved, whole, move, returns, joins⟩ := inside
  rw [← line] at joins
  refine single valid shown (move.around tag attrs content) ?_ (.element attrs' joins)
  rw [Node.found_element]
  exact comes _ _ _ returns

end AreKept

end MarkedNode

namespace DocNode

open ComponentMarkdown.Found (IsKept)
open ComponentMarkdown.MarkedNode (AreKept)

variable {page : Bool} {found more : List Found} {docs tail : List DocNode}

/-- Nodes of a line that are written with what was found in the markup they were read from. -/
structure AreFramed [Surroundings] (page : Bool) (found : List Found) (docs : List DocNode) : Prop where
  wellMarked : ∀ doc ∈ docs, doc.isWellMarked = true
  written : Slugged.Gives (AreKept page found) (Writing.marked (docs.map writing))

namespace AreFramed

variable [Surroundings]

theorem nil : AreFramed page [] [] := ⟨List.forall_mem_nil _, .pure .nil⟩

theorem append (first : AreFramed page found docs) (second : AreFramed page more tail) :
    AreFramed page (found ++ more) (docs ++ tail) := by
  refine ⟨List.forall_mem_append.2 ⟨first.wellMarked, second.wellMarked⟩, ?_⟩
  rw [Writing.marked_append]
  exact first.written.bind fun items kept => second.written.bind fun items' kept' => .pure (kept.append kept')

theorem single {doc : DocNode} (wellMarked : doc.isWellMarked = true)
    (written : Slugged.Gives (AreKept page found) doc.writing.inline) : AreFramed page found [doc] := by
  refine ⟨List.forall_mem_singleton.2 wellMarked, ?_⟩
  rw [List.map_singleton, Writing.marked]
  refine written.bind fun items kept => .pure ?_
  rwa [List.append_nil]

/-- What is found in a line is found again when it is written. -/
theorem line (framed : AreFramed page found docs) :
    Slugged.Gives (IsKept page found) (Writing.line ((Reading.joinTexts docs).map writing)) := by
  rw [line_joinTexts framed.wellMarked, Writing.line]
  exact framed.written.bind fun items kept => .pure kept.line

end AreFramed

end DocNode

namespace Node

/-- There is nothing but text in formatted text. -/
theorem isImage_of_isMarkedText {page : Bool} {node : Node} (text : node.isMarkedText = true) :
    (node.found page).any Found.isImage = false := by
  induction node using induction with
  | text content =>
    rw [found_text]
    exact Found.isImage_ofText page content
  | comment content =>
    rw [found_comment]
    rfl
  | element tag attrs children ih =>
    rw [isMarkedText] at text
    cases meaning : MarkKind.ofTag? tag with
    | none => simp [meaning] at text
    | some kind =>
      have inside : (children.flatMap (found page)).any Found.isImage = false := by
        rw [List.any_flatMap, List.any_eq_false]
        intro child member
        rw [ih child member]
        · decide
        · cases kind <;> simp only [meaning, Bool.false_eq_true] at text
          all_goals exact areMarkedText_iff.1 text child member
      obtain rfl := MarkKind.ofTag?_eq_some_iff.1 meaning
      rw [found_element]
      cases kind with
      | code => exact Found.isImage_ofText page _
      | link => simp [meaning] at text
      | bold | italic | strike =>
        rw [Found.around_formatting (by decide)]
        exact inside

/-- What is found in a node is found again where it is read in a line, under marks that hide nothing of it. The
links among the marks are frames around it. -/
def ComesBack [Surroundings] (emoji page : Bool) (node : Node) : Prop :=
  ∀ (marks : List Mark) (outer : List Frame), marks.all Mark.wellFormed = true →
    (∀ mark ∈ marks, mark.kind ≠ .code) → List.Forall₂ Frame.Returns outer (Frame.ofMarks marks) →
    (∀ mark ∈ marks, mark.kind = .link → node.isMarkedText = true) →
    Slugged.Gives (DocNode.AreFramed page ((node.found page).map (Found.under outer)))
      ((node.reading emoji).inline marks)

end Node

namespace Reading

open ComponentMarkdown.Found (IsKept)
open ComponentMarkdown.MarkedNode (AreKept)
open DocNode (AreFramed)
open Node (found reading)

variable [Surroundings] {emoji page : Bool}

section Marks

variable {marks : List Mark} {outer : List Frame} (valid : marks.all Mark.wellFormed = true)
  (frames : List.Forall₂ Frame.Returns outer (Frame.ofMarks marks))

include valid frames

theorem textNodes_framed (content : String) :
    AreFramed page ((Found.ofText page content).map (Found.under outer)) (textNodes emoji content marks) := by
  by_cases empty : content = ""
  · rw [textNodes, if_pos empty, empty]
    cases page <;> exact .nil
  · obtain ⟨texts, _, rfl, written⟩ := marked_textNodes emoji empty marks
    refine ⟨DocNode.textNodes_wellMarked emoji empty valid, ?_⟩
    rw [written]
    exact .pure (.texts valid frames texts)

theorem codeText_framed {attrs : Attrs} (map : attrs.wellFormed = true) (noCode : ∀ mark ∈ marks, mark.kind ≠ .code)
    (content : String) :
    AreFramed page ((Found.ofText page content).map (Found.under outer)) (codeText attrs content marks) := by
  have wellMarked : ∀ doc ∈ codeText attrs content marks, doc.isWellMarked = true := codeText_wellMarked map valid
  refine ⟨wellMarked, ?_⟩
  rw [codeText] at wellMarked ⊢
  split
  · rename_i empty
    rw [empty]
    cases page <;> exact .pure .nil
  · rename_i some
    rw [if_neg some, List.forall_mem_singleton] at wellMarked
    rw [List.map_singleton, Writing.marked, DocNode.writing_inline]
    refine .pure ?_
    have inside (attrs' : Attrs) :
        List.Forall₂ Frame.Returns outer (Frame.ofMarks (Mark.compose marks ⟨.code, attrs'⟩)) := by
      rw [Mark.compose, Frame.ofMarks_cons noCode]
      exact frames
    have whole : AreKept page _ _ := .texts wellMarked (inside _) [content]
    rwa [String.join_cons, String.join_nil, String.append_empty] at whole

end Marks

theorem inlines_framed {nodes : List Node} (each : ∀ node ∈ nodes, node.ComesBack emoji page) {marks : List Mark}
    {outer : List Frame} (valid : marks.all Mark.wellFormed = true) (noCode : ∀ mark ∈ marks, mark.kind ≠ .code)
    (frames : List.Forall₂ Frame.Returns outer (Frame.ofMarks marks))
    (text : ∀ mark ∈ marks, mark.kind = .link → ∀ node ∈ nodes, node.isMarkedText = true) :
    Slugged.Gives (AreFramed page ((nodes.flatMap (found page)).map (Found.under outer)))
      (inlines marks (nodes.map (reading emoji))) := by
  induction nodes with
  | nil => exact .pure .nil
  | cons node rest ih =>
    obtain ⟨here, below⟩ := List.forall_mem_cons.1 each
    have first := here marks outer valid noCode frames fun mark member link =>
      text mark member link node List.mem_cons_self
    have later := ih below fun mark member link other inside => text mark member link other (.tail _ inside)
    rw [List.map_cons, inlines, List.flatMap_cons, List.map_append]
    exact first.bind fun docs framed => later.bind fun tail framed' => .pure (framed.append framed')

/-- What is found in a line of markup is found again when the line that is read of it is written. -/
theorem line_framed {nodes : List Node} (each : ∀ node ∈ nodes, node.ComesBack emoji page) :
    Slugged.Gives (fun docs => Slugged.Gives (IsKept page (nodes.flatMap (found page)))
      (Writing.line (docs.map DocNode.writing))) (line (nodes.map (reading emoji))) := by
  have bare : List.Forall₂ Frame.Returns [] (Frame.ofMarks []) := .nil
  have inside := inlines_framed each rfl (List.forall_mem_nil _) bare (List.forall_mem_nil _)
  rw [Found.map_under_nil] at inside
  exact inside.bind fun _ framed => .pure framed.line

section Element

variable {tag : String} {attrs : Attrs} {children : List Node} {marks : List Mark}
  (valid : marks.all Mark.wellFormed = true) (noCode : ∀ mark ∈ marks, mark.kind ≠ .code)

include valid noCode

/-- An element that is read as one node and written around what was found in it. -/
theorem element_framed {doc : DocNode} {attrs' : Attrs} {x : Slugged (List Node)} (marked : doc.marks = marks)
    (noLink : ∀ mark ∈ marks, mark.kind ≠ .link) (line : Node.holdsLine tag = true)
    (written : doc.writing.inline = do return [⟨marks, .element tag attrs' (← x)⟩])
    (inside : Slugged.Gives (IsKept page (children.flatMap (found page))) x)
    (comes : ∀ moved written content', List.Forall₂ Found.Returns moved written →
      List.Forall₂ Found.Returns (Found.around page tag attrs (Node.textOf children) moved)
        (Found.around page tag attrs' content' written)) :
    AreFramed page ((Node.element tag attrs children).found page) [doc] := by
  refine .single (by rw [DocNode.isWellMarked, marked, valid]) ?_
  rw [written, Node.found_element]
  refine inside.bind fun content kept => .pure ?_
  exact .around valid (fun mark member hides => hides.elim (noLink mark member) (noCode mark member)) kept line
    _ comes

/-- An element without content. -/
theorem leaf_framed {doc : DocNode} {attrs' : Attrs} (marked : doc.marks = marks)
    (noLink : ∀ mark ∈ marks, mark.kind ≠ .link)
    (comes : List.Forall₂ Found.Returns ((Node.element tag attrs children).found page)
      ((Node.element tag attrs' []).found page))
    (written : doc.writing.inline = pure [⟨marks, .element tag attrs' []⟩]) :
    AreFramed page ((Node.element tag attrs children).found page) [doc] := by
  refine .single (by rw [DocNode.isWellMarked, marked, valid]) ?_
  rw [written]
  exact .pure (.single valid (fun mark member hides => hides.elim (noLink mark member) (noCode mark member))
    (.refl _) comes (.refl _))

variable {outer : List Frame} (frames : List.Forall₂ Frame.Returns outer (Frame.ofMarks marks))
  (map : attrs.wellFormed = true) (each : ∀ child ∈ children, child.ComesBack emoji page)
  (text : ∀ mark ∈ marks, mark.kind = .link → (Node.element tag attrs children).isMarkedText = true)

include frames map each text

/-- An element with a mark is taken off, read as its text or kept as a link. -/
theorem marked_framed {kind : MarkKind} (meaning : tag = kind.tag) :
    Slugged.Gives (AreFramed page (((Node.element tag attrs children).found page).map (Found.under outer)))
      (marked kind attrs (children.map (reading emoji)) marks) := by
  subst meaning
  have inside : ∀ mark ∈ marks, mark.kind = .link → kind ≠ .link ∧ Node.areMarkedText children = true := by
    intro mark member link
    have whole := text mark member link
    rw [Node.isMarkedText, MarkKind.ofTag?_tag] at whole
    cases kind <;> simp_all
  have format : ∀ (kind : MarkKind) (attrs : Attrs) (inner : List Frame), attrs.wellFormed = true → kind ≠ .code →
      List.Forall₂ Frame.Returns inner (Frame.ofMarks [⟨kind, attrs⟩]) →
      (kind = .link → ∀ child ∈ children, child.isMarkedText = true) →
      Slugged.Gives (AreFramed page ((children.flatMap (found page)).map (Found.under (inner ++ outer))))
        (inlines (Mark.compose marks ⟨kind, attrs⟩) (children.map (reading emoji))) := by
    intro kind attrs inner map code own link
    refine inlines_framed each ?_ (List.forall_mem_cons.2 ⟨code, noCode⟩) ?_
      (List.forall_mem_cons.2 ⟨link, fun mark member same => Node.areMarkedText_iff.1 (inside mark member same).2⟩)
    · rw [Mark.compose, List.all_cons, Mark.wellFormed, map, valid]
      rfl
    · rw [Mark.compose, Frame.ofMarks_cons noCode]
      exact List.rel_append own frames
  cases kind with
  | code =>
    rw [Node.found_element, marked, Node.map_node_map_reading]
    exact .pure (codeText_framed valid frames map noCode _)
  | link =>
    rw [marked, Node.map_node_map_reading]
    split
    · rename_i plain
      have each' := Node.areMarkedText_iff.1 plain
      have bare : (children.flatMap (found page)).any Found.isImage = false := by
        rw [List.any_flatMap, List.any_eq_false]
        intro child member
        rw [Node.isImage_of_isMarkedText (each' child member)]
        decide
      have returns : Frame.Returns (.link false attrs)
          (.link false (LinkPolicy.markupAttrs (LinkPolicy.editorAttrs attrs))) := ⟨_, Or.inr rfl, Or.inl rfl⟩
      rw [Node.found_element, MarkKind.tag, Found.around_link bare, Found.map_under_under]
      exact format .link _ _ (LinkPolicy.editorAttrs_wellFormed map) (by decide) (.cons returns .nil) fun _ => each'
    · have noLink : ∀ mark ∈ marks, mark.kind ≠ .link := fun mark member link => (inside mark member link).1 rfl
      have bare : outer = [] := by
        rw [Frame.ofMarks_eq_nil noLink] at frames
        exact List.forall₂_nil_right_iff.1 frames
      rw [bare, Found.map_under_nil]
      simp only [linkNode, bind_assoc, pure_bind]
      refine (line_framed each).bind fun docs content => .pure ?_
      exact element_framed valid noCode rfl noLink rfl (DocNode.writing_inline _) content
        fun moved written content' inside =>
        Found.around_link_returns map inside _ content'
  | bold | italic | strike =>
    rw [Node.found_element, Found.around_formatting (by decide)]
    exact format _ attrs [] map (by decide) .nil (by simp)

/-- An element inside a line, of a tag that has a meaning there. -/
theorem inlineElement_framed (inside : isBlockTag tag = false) :
    Slugged.Gives (AreFramed page (((Node.element tag attrs children).found page).map (Found.under outer)))
      (inlineElement tag attrs (children.map (reading emoji)) marks) := by
  have free : (∀ kind, TagKind.ofTag tag ≠ .mark kind) → (∀ mark ∈ marks, mark.kind ≠ .link) ∧
      ((Node.element tag attrs children).found page).map (Found.under outer) =
        (Node.element tag attrs children).found page := by
    intro plain
    have noLink : ∀ mark ∈ marks, mark.kind ≠ .link := by
      intro mark member link
      have whole := text mark member link
      rw [Node.isMarkedText] at whole
      cases found : MarkKind.ofTag? tag with
      | none => simp [found] at whole
      | some kind => exact plain kind (TagKind.ofTag_of_mark found)
    rw [Frame.ofMarks_eq_nil noLink] at frames
    rw [List.forall₂_nil_right_iff.1 frames, Found.map_under_nil]
    exact ⟨noLink, rfl⟩
  have leaf : ∀ {attrs' : Attrs}, (∀ attrs content inside, Found.around page tag attrs content inside = []) →
      List.Forall₂ Found.Returns ((Node.element tag attrs children).found page)
        ((Node.element tag attrs' []).found page) := by
    intro attrs' none
    rw [Node.found_element, Node.found_element, none, none]
    exact .nil
  simp only [inlineElement]
  cases meaning : TagKind.ofTag tag with
  | mark kind => exact marked_framed valid noCode frames map each text (TagKind.ofTag_eq_mark_iff.1 meaning)
  | lineBreak =>
    obtain ⟨noLink, bare⟩ := free (by simp [meaning])
    obtain rfl : tag = "br" := TagKind.tag_eq meaning rfl (by decide)
    rw [bare]
    exact .pure (leaf_framed valid noCode rfl noLink (leaf fun _ _ _ => rfl) (DocNode.writing_inline _))
  | image =>
    obtain ⟨noLink, bare⟩ := free (by simp [meaning])
    obtain rfl : tag = "img" := TagKind.tag_eq meaning rfl (by decide)
    rw [bare]
    refine .pure (leaf_framed valid noCode rfl noLink ?_ (DocNode.writing_inline _))
    rw [Node.found_element, Node.found_element]
    exact .cons ⟨rfl, .nil⟩ .nil
  | video =>
    obtain ⟨noLink, bare⟩ := free (by simp [meaning])
    obtain rfl : tag = "video" := TagKind.tag_eq meaning rfl (by decide)
    rw [bare]
    exact .pure (leaf_framed valid noCode rfl noLink (leaf fun _ _ _ => rfl) (DocNode.writing_inline _))
  | binding =>
    obtain ⟨noLink, bare⟩ := free (by simp [meaning])
    obtain rfl : tag = "binding" := TagKind.tag_eq meaning rfl (by decide)
    rw [bare]
    exact .pure (leaf_framed valid noCode rfl noLink (leaf fun _ _ _ => rfl) (DocNode.writing_inline _))
  | span =>
    obtain ⟨noLink, bare⟩ := free (by simp [meaning])
    obtain rfl : tag = "span" := TagKind.tag_eq meaning rfl (by decide)
    rw [bare]
    refine (line_framed each).bind fun docs content => .pure ?_
    exact element_framed valid noCode rfl noLink rfl (DocNode.writing_inline _) content
      fun moved written content' inside =>
      Found.around_span_returns map inside _ content'
  | component | template | html =>
    obtain ⟨noLink, bare⟩ := free (by simp [meaning])
    have line : Node.holdsLine tag = true := by
      rw [Node.holdsLine]
      cases found : MarkKind.ofTag? tag with
      | none => rfl
      | some kind => simp [TagKind.ofTag_of_mark found] at meaning
    rw [bare]
    refine (line_framed each).bind fun docs content => .pure ?_
    refine element_framed valid noCode rfl noLink line (DocNode.writing_inline _) content
      fun moved written content' inside => ?_
    rw [Found.around, Found.around, meaning]
    cases page <;> first | exact inside | exact .nil
  | style =>
    rw [Node.found_element, Found.around, meaning]
    exact .pure .nil
  | _ => simp [isBlockTag, meaning] at inside

end Element

end Reading

end ComponentMarkdown
