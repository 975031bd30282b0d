import ComponentMarkdown.Platform
import ComponentMarkdown.Proofs.Doc.FramedBlocks
import ComponentMarkdown.Proofs.Doc.Paragraphs

namespace ComponentMarkdown

def Frame.isSpan : Frame → Bool
  | span _ => true
  | link _ _ => false

namespace Found

/-- Something that is found with the spans around it. A link itself is not looked for. -/
def inSpans (found : Found) : List Found :=
  match found.leaf with
  | .link => []
  | leaf => [⟨leaf, found.frames.filter Frame.isSpan⟩]

theorem inSpans_under_link (pictured : Bool) (attrs : Attrs) (found : Found) :
    (found.under [.link pictured attrs]).inSpans = found.inSpans := by
  simp [inSpans, under, Frame.isSpan]

theorem inSpans_under_span (attrs : Attrs) (found : Found) :
    (found.under [.span attrs]).inSpans = found.inSpans.map (under [.span attrs]) := by
  cases leaf : found.leaf <;> simp [inSpans, under, Frame.isSpan, leaf]

theorem flatMap_inSpans_under_link (pictured : Bool) (attrs : Attrs) (inside : List Found) :
    (inside.map (under [.link pictured attrs])).flatMap inSpans = inside.flatMap inSpans := by
  rw [List.flatMap_map]
  exact List.flatMap_congr fun one _ => inSpans_under_link pictured attrs one

theorem flatMap_inSpans_link {page : Bool} (attrs : Attrs) (content : String) (inside : List Found) :
    (around page "a" attrs content inside).flatMap inSpans = inside.flatMap inSpans := by
  have link : around page "a" attrs content inside =
    if inside.any isImage then (⟨.link, []⟩ :: inside).map (under [.link true attrs])
    else inside.map (under [.link false attrs]) := rfl
  rw [link]
  split
  · rw [flatMap_inSpans_under_link, List.flatMap_cons]
    rfl
  · exact flatMap_inSpans_under_link false attrs inside

theorem flatMap_inSpans_span {page : Bool} (attrs : Attrs) (content : String) (inside : List Found) :
    (around page "span" attrs content inside).flatMap inSpans =
      ⟨.span, [.span attrs]⟩ :: (inside.flatMap inSpans).map (under [.span attrs]) := by
  have span : around page "span" attrs content inside = (⟨.span, []⟩ :: inside).map (under [.span attrs]) := rfl
  rw [span, List.map_cons, List.flatMap_cons, List.flatMap_map, List.map_flatMap,
    List.flatMap_congr fun one _ => inSpans_under_span attrs one]
  rfl

/-- What an element holds in spans depends on its content only through what that holds in spans. -/
theorem around_inSpans_congr {page : Bool} {inside inside' : List Found}
    (same : inside.flatMap inSpans = inside'.flatMap inSpans) (tag : String) (attrs : Attrs) (content : String) :
    (around page tag attrs content inside).flatMap inSpans =
    (around page tag attrs content inside').flatMap inSpans := by
  cases meaning : TagKind.ofTag tag with
  | span =>
    obtain rfl : tag = "span" := TagKind.tag_eq meaning rfl (by decide)
    rw [flatMap_inSpans_span, flatMap_inSpans_span, same]
  | mark kind =>
    obtain rfl := TagKind.ofTag_eq_mark_iff.1 meaning
    cases kind with
    | link =>
      exact (flatMap_inSpans_link attrs content _).trans (same.trans (flatMap_inSpans_link attrs content _).symm)
    | code => rfl
    | bold | italic | strike => rwa [around_formatting (by decide), around_formatting (by decide)]
  | lineBreak | image | video | binding | style | horizontalRule | codeBlock => rw [around, around, meaning]
  | component | template =>
    rw [around, around, meaning]
    exact same
  | html | paragraph | heading | bulletList | orderedList | listItem | blockquote =>
    rw [around, around, meaning]
    cases page <;> first | rfl | exact same

end Found

namespace Node

variable {page : Bool}

/-- What a node holds in spans. -/
def inSpans (page : Bool) (node : Node) : List Found := (node.found page).flatMap Found.inSpans

theorem inSpans_text_append (content next : String) :
    inSpans page (text (content ++ next)) = inSpans page (text content) ++ inSpans page (text next) := by
  rw [inSpans, inSpans, inSpans, found_text, found_text, found_text, Found.ofText_append, List.flatMap_append]

theorem inSpans_element_congr {children children' : List Node}
    (same : children.flatMap (inSpans page) = children'.flatMap (inSpans page))
    (text : textOf children = textOf children')
    (tag : String) (attrs : Attrs) :
    inSpans page (element tag attrs children) = inSpans page (element tag attrs children') := by
  have found : ∀ nodes : List Node,
    nodes.flatMap (inSpans page) = (nodes.flatMap (Node.found page)).flatMap Found.inSpans :=
    fun nodes => List.flatMap_assoc.symm
  rw [found, found] at same
  rw [inSpans, inSpans, found_element, found_element, text]
  exact Found.around_inSpans_congr same tag attrs _

theorem inSpans_of_joinable {tag : String} (joinable : tag ∈ joinableTags) (attrs : Attrs) (children : List Node) :
    inSpans page (element tag attrs children) = children.flatMap (inSpans page) := by
  have inside : children.flatMap (inSpans page) = (children.flatMap (Node.found page)).flatMap Found.inSpans :=
    List.flatMap_assoc.symm
  rw [inSpans, found_element, inside]
  obtain ⟨kind, rfl⟩ := exists_kind_of_joinable joinable
  cases kind with
  | code => exact absurd joinable (by decide)
  | link => exact Found.flatMap_inSpans_link attrs _ _
  | bold | italic | strike => rw [Found.around_formatting (by decide)]

/-- Joining formatting leaves the spans as they are, and the texts and images in them. -/
theorem JoinWithin.inSpans {line : Bool} {nodes next : List Node} (step : JoinWithin line nodes next) :
    nodes.flatMap (inSpans page) = next.flatMap (inSpans page) ∧ textOf nodes = textOf next := by
  induction step with
  | here join =>
    cases join with
    | @inside before left space right joined behind fused =>
      have text := seesThroughFormatting_textContent.flatMap_consJoining left [space, right]
      rw [consJoining, fused] at text
      obtain ⟨tag, attrs, children, attrs', children', joinable, -, rfl, rfl, rfl, rfl⟩ := joinOver?_eq_some fused
      refine ⟨?_, ?_⟩
      · simp only [List.flatMap_append, List.flatMap_cons, inSpans_of_joinable joinable,
          flatMap_glueTexts inSpans_text_append, List.append_assoc]
      · rw [← String.toList_inj, toList_textOf, toList_textOf, List.flatMap_append, List.flatMap_append]
        simp only [List.flatMap_cons, List.flatMap_nil, List.append_nil] at text ⊢
        rw [text, List.append_assoc, List.append_assoc]
  | inside before tag attrs behind _ ih =>
    obtain ⟨same, text⟩ := ih
    refine ⟨?_, ?_⟩
    · rw [List.flatMap_append, List.flatMap_append, List.flatMap_cons, List.flatMap_cons,
        inSpans_element_congr same text]
    · simp only [textOf_append, textOf_cons, textContent, text]

theorem Joins.inSpans {line : Bool} {nodes next : List Node} (joins : Joins line nodes next) :
    nodes.flatMap (inSpans page) = next.flatMap (inSpans page) := by
  induction joins with
  | refl => rfl
  | tail _ step ih => exact ih.trans step.inSpans.1

end Node

namespace Found

variable [Surroundings] {page : Bool}

theorem filter_isSpan_returns {frames frames' : List Frame} (returns : List.Forall₂ Frame.Returns frames frames') :
    List.Forall₂ Frame.Returns (frames.filter Frame.isSpan) (frames'.filter Frame.isSpan) := by
  induction returns with
  | nil => exact .nil
  | @cons frame frame' _ _ first _ ih =>
    cases frame <;> cases frame' <;>
      simp only [List.filter_cons, Frame.isSpan, if_true, Bool.false_eq_true, if_false]
    · exact .cons first ih
    · exact first.elim
    · exact absurd first (by simp [Frame.Returns])
    · exact ih

theorem Returns.spans {found found' : Found} (returns : found.Returns found') :
    List.Forall₂ Returns found.inSpans found'.inSpans := by
  have leaf := returns.leaf
  rw [Found.inSpans, Found.inSpans, leaf]
  cases found.leaf <;> first | exact .nil | exact .cons ⟨rfl, filter_isSpan_returns returns.frames⟩ .nil

/-- Of what is found in spans, the nodes that are written say themselves how it comes back: spans are not joined. -/
theorem IsKept.spans {found : List Found} {nodes : List Node} (kept : IsKept page found nodes) :
    ∃ moved, Moved page found moved ∧
      List.Forall₂ Returns (moved.flatMap inSpans) ((nodes.flatMap (Node.found page)).flatMap inSpans) := by
  obtain ⟨moved, line, move, returns, joins⟩ := kept
  refine ⟨moved, move, ?_⟩
  have same : (line.flatMap (Node.found page)).flatMap inSpans =
    (nodes.flatMap (Node.found page)).flatMap inSpans := by
    rw [List.flatMap_assoc, List.flatMap_assoc]
    exact joins.inSpans
  rw [← same]
  exact List.rel_flatMap returns fun _ _ one => one.spans

end Found

namespace Node

/-- What is found in nodes comes back in others, in the order in which it was, or on a page perhaps in another. -/
structure ComeBack [Surroundings] (page : Bool) (nodes nodes' : List Node) : Prop where
  /-- It comes back in the spans and links that it was in, in a line of which the others are joined. -/
  links : Found.IsKept page (nodes.flatMap (found page)) nodes'
  /-- In the others themselves it is in the spans that it was in. -/
  spans : ∃ moved, Found.Moved page (nodes.flatMap (inSpans page)) moved ∧
    List.Forall₂ Found.Returns moved (nodes'.flatMap (inSpans page))

theorem comeBack_of_isKept [Surroundings] {page : Bool} {nodes nodes' : List Node}
    (kept : Found.IsKept page (nodes.flatMap (found page)) nodes') : ComeBack page nodes nodes' := by
  obtain ⟨moved, move, returns⟩ := kept.spans
  rw [List.flatMap_assoc] at returns
  refine ⟨kept, moved.flatMap Found.inSpans, ?_, returns⟩
  have inside : nodes.flatMap (inSpans page) = (nodes.flatMap (found page)).flatMap Found.inSpans :=
    List.flatMap_assoc.symm
  rw [inside]
  cases page
  · exact congrArg (List.flatMap Found.inSpans) move
  · exact List.Perm.flatMap_right _ move

end Node

namespace Tree

/-- Everything that is found on a page is found on it again behind the editor, and what is in a paragraph is found
in a paragraph, in the same order: texts and images are in the spans and links that they were in, and each of these
has the attributes that it had, in the same order if and only if the style and class of a span are its last ones
and the address, target and relation of a link its first ones with at most one more. A link that comes behind an
equal one and a single blank is joined with that one. -/
theorem throughEditor_frames [Surroundings] {tree : Tree} (valid : Node.allWellFormed tree.nodes = true)
    (emoji : Bool) : Node.ComeBack true tree.nodes (tree.throughEditor emoji).nodes ∧
      ∀ attrs content, .element "p" attrs content ∈ tree.nodes.flatMap Node.readInside →
        ∃ content', .element "p" [] content' ∈ (tree.throughEditor emoji).nodes.flatMap Node.inOrder ∧
          Node.ComeBack false content content' := by
  refine ⟨?_, fun attrs content read => ?_⟩
  · have each : ∀ node ∈ tree.nodes, node.ComesBackOnPage emoji := fun node member =>
      Node.comesBackOnPage (Node.allWellFormed_iff.1 valid node member)
    have blocks := Reading.blocks_framed each
    rw [throughEditor, Doc.ofTree_eq, Doc.toTree_nodes, Doc.blocks_frontmatterNode]
    exact Node.comeBack_of_isKept ((blocks .empty).written .empty)
  · obtain ⟨node, member, inside⟩ := List.mem_flatMap.1 read
    have below := Node.wellFormed_of_readInside (Node.allWellFormed_iff.1 valid node member) inside
    have each : ∀ child ∈ content, child.ComesBack emoji false := fun child listed =>
      Node.comesBack (Node.allWellFormed_iff.1 below child listed)
    have line := Reading.line_framed each
    exact holdParagraph_throughEditor read (line.weaken fun docs written =>
      written.weaken fun content' kept => Node.comeBack_of_isKept kept)

/-- In a quotation, a link around a span and an image, whose address is not its first attribute. The span has its
class at its end. -/
theorem throughEditor_frames_quote :
    let content (attrs : Attrs) := [Node.text "see ", .element "a" attrs
      [.element "span" [("id", .str "s"), ("class", .str "c")] [.text "a"], .element "img" [("src", .str "/i")] []]]
    let quote (content : List Node) := [Node.element "blockquote" [] [.element "p" [] content]]
    let before := content [("id", .str "l"), ("href", .str "/x")]
    let behind := content [("href", .str "/x"), ("id", .str "l")]
    letI : Surroundings := .platform
    Node.allWellFormed (quote before) = true ∧
      ((ofNodes (quote before)).throughEditor false).nodes = quote behind ∧
      Node.ComeBack true (quote before) (quote behind) ∧
      .element "p" [] before ∈ (quote before).flatMap Node.readInside ∧
      ∃ content', .element "p" [] content' ∈ (quote behind).flatMap Node.inOrder ∧
        Node.ComeBack false before content' := by
  intro content quote before behind
  let _ : Surroundings := .platform
  have valid : Node.allWellFormed (quote before) = true := by decide
  have written : ((ofNodes (quote before)).throughEditor false).nodes = quote behind := by rfl
  have read : .element "p" [] before ∈ (quote before).flatMap Node.readInside := .tail _ (.head _)
  obtain ⟨page, lines⟩ := @throughEditor_frames _ (ofNodes (quote before)) valid false
  rw [written] at page lines
  exact ⟨valid, written, page, read, lines [] before read⟩

/-- A span whose class is not its last attribute comes back with its attributes in another order, and is written as
another text. -/
theorem throughEditor_reordered :
    let attrs : Attrs := [("class", .str "big"), ("id", .str "x")]
    let page := ofNodes [.element "p" [] [.element "span" attrs [.text "t"]]]
    letI : Surroundings := .platform
    attrs.isCanonicalSpan = true ∧
      (page.throughEditor false).nodes =
        [.element "p" [] [.element "span" [("id", .str "x"), ("class", .str "big")] [.text "t"]]] ∧
      page.toMarkdown false = "[t]{.big #x}\n" ∧
        (page.throughEditor false).toMarkdown false = "[t]{#x .big}\n" := by
  intro attrs page
  let _ : Surroundings := .platform
  exact ⟨by decide, by rfl, by decide, by decide⟩

end Tree

end ComponentMarkdown
