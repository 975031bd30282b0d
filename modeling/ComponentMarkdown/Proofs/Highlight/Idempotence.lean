import ComponentMarkdown.Proofs.Doc.Shortcodes
import ComponentMarkdown.Proofs.Highlight.Decoration

namespace ComponentMarkdown

namespace Node

/-- Whether a code block carries the source of another one, and has it as its text. -/
def KeepsSource (node decorated : Node) : Prop :=
  ∀ code, node.source? = some code → decorated.source? = some code ∧ decorated.textContent = code

mutual

/-- The code blocks in a node that are not part of other code, in document order. -/
def outerCodeBlocks : Node → List Node
  | element tag attrs children =>
    if tag = "pre" then [element tag attrs children]
    else if tag = "code" ∧ attrs.contains "language" then []
    else allOuterCodeBlocks children
  | _ => []

def allOuterCodeBlocks : List Node → List Node
  | [] => []
  | node :: rest => node.outerCodeBlocks ++ allOuterCodeBlocks rest

end

theorem outerCodeBlocks_text (content : String) : (text content).outerCodeBlocks = [] := by
  rw [outerCodeBlocks]
  simp

theorem outerCodeBlocks_comment (content : String) : (comment content).outerCodeBlocks = [] := by
  rw [outerCodeBlocks]
  simp

theorem outerCodeBlocks_element (tag : String) (attrs : Attrs) (children : List Node) :
    (element tag attrs children).outerCodeBlocks =
      if tag = "pre" then [element tag attrs children]
      else if tag = "code" ∧ attrs.contains "language" then []
      else children.flatMap outerCodeBlocks := by
  have all : ∀ nodes, allOuterCodeBlocks nodes = nodes.flatMap outerCodeBlocks := by
    intro nodes
    induction nodes with
    | nil => rw [allOuterCodeBlocks, List.flatMap_nil]
    | cons node rest ih => rw [allOuterCodeBlocks, ih, List.flatMap_cons]
  rw [outerCodeBlocks, all]

end Node

namespace Highlight

open Node (textOf textOf_cons textOf_nil)

section Again

variable {tokenizer : Tokenizer} {palette : Option Palette} {attrs : Attrs}

theorem alike_of_perm {tag : String} {attrs attrs' : Attrs} (perm : attrs.Perm attrs') (children : List Node) :
    (Node.element tag attrs children).Alike (.element tag attrs' children) :=
  .element perm (List.forall₂_same.2 fun child _ => .refl child)

theorem decoratedBlock_again (distinct : attrs.Distinct) (content : String) :
    (decorated tokenizer palette (decoratedBlock tokenizer palette attrs content)).Alike
      (decoratedBlock tokenizer palette attrs content) := by
  have bare : IsBare (keptAttrs attrs content) := isBare_withSource (isBare_stripped attrs) _
  have keptDistinct : (keptAttrs attrs content).Distinct := withSource_distinct (stripped_distinct distinct) _
  have language : ∀ other : Attrs, other.get? "language" = (keptAttrs attrs content).get? "language" →
      languageOf? other = languageOf? attrs := by
    intro other same
    rw [languageOf?, Attrs.getString?, same, (get?_keptAttrs attrs content).2]
    rfl
  cases found : coloured? tokenizer palette blockNodes (languageOf? attrs) (sourceOf attrs content) with
  | some nodes =>
    have classed : ∀ key ∈ ["code", "language"], (withClass (keptAttrs attrs content)).get? key =
        (keptAttrs attrs content).get? key := by
      intro key member
      refine get?_withClass _ ?_
      rintro rfl
      exact absurd member (by decide)
    have text : textOf [innerCode nodes] = sourceOf attrs content := by
      rw [textOf_innerCode]
      exact textOf_coloured textOf_blockNodes found
    have code := sourceOf_again (classed "code" (by decide))
    have there : (stripped (withClass (keptAttrs attrs content))).contains "code" = true := by
      rw [Attrs.contains, get?_stripped _ (by decide) (by decide), classed "code" (by decide)]
      exact contains_withSource _ _
    have again : coloured? tokenizer palette blockNodes (languageOf? (withClass (keptAttrs attrs content)))
        (sourceOf (withClass (keptAttrs attrs content)) (sourceOf attrs content)) = some nodes := by
      rw [language _ (classed "language" (by decide)), code, found]
    rw [decoratedBlock_of_some found, decorated_block, text, decoratedBlock_of_some again, keptAttrs,
      withSource_of_contains there]
    exact alike_of_perm (withClass_again bare keptDistinct) _
  | none =>
    have text : textOf [innerCode [.text (sourceOf attrs content)]] = sourceOf attrs content := by
      rw [textOf_innerCode, textOf_cons, textOf_nil, Node.textContent_text, String.append_empty]
    have code := sourceOf_again (rfl : (keptAttrs attrs content).get? "code" = _)
    have there : (keptAttrs attrs content).contains "code" = true := contains_withSource _ _
    have again : coloured? tokenizer palette blockNodes (languageOf? (keptAttrs attrs content))
        (sourceOf (keptAttrs attrs content) (sourceOf attrs content)) = none := by
      rw [language _ rfl, code, found]
    rw [decoratedBlock_of_none found, decorated_block, text, decoratedBlock_of_none again, code, keptAttrs,
      stripped_of_isBare bare, withSource_of_contains there]
    exact .refl _

theorem decoratedSpan_again (distinct : attrs.Distinct) (named : attrs.contains "language" = true)
    (content : String) : (decorated tokenizer palette (decoratedSpan tokenizer palette attrs content)).Alike
      (decoratedSpan tokenizer palette attrs content) := by
  have bare := isBare_stripped attrs
  have kept : (stripped attrs).get? "language" = attrs.get? "language" :=
    get?_stripped attrs (by decide) (by decide)
  have classed : (withClass (stripped attrs)).get? "language" = attrs.get? "language" := by
    rw [get?_withClass _ (by decide), kept]
  have language : ∀ other : Attrs, other.get? "language" = attrs.get? "language" →
      other.contains "language" = true ∧ other.getString? "language" = attrs.getString? "language" := by
    intro other same
    rw [Attrs.contains, Attrs.getString?, same]
    exact ⟨named, rfl⟩
  cases found : coloured? tokenizer palette inlineNodes (some ((attrs.getString? "language").getD "")) content with
  | some nodes =>
    obtain ⟨there, same⟩ := language _ classed
    have text := textOf_coloured textOf_inlineNodes found
    rw [decoratedSpan_of_some found, decorated_span there, text, decoratedSpan_of_some (by rw [same, found])]
    exact alike_of_perm (withClass_again bare (stripped_distinct distinct)) _
  | none =>
    obtain ⟨there, same⟩ := language _ kept
    have text : textOf [Node.text content] = content := by
      rw [textOf_cons, textOf_nil, Node.textContent_text, String.append_empty]
    rw [decoratedSpan_of_none found, decorated_span there, text, decoratedSpan_of_none (by rw [same, found]),
      stripped_of_isBare bare]
    exact .refl _

theorem decorated_again {node : Node} (valid : node.wellFormed = true) :
    (decorated tokenizer palette (decorated tokenizer palette node)).Alike (decorated tokenizer palette node) := by
  induction node using decorated_induction tokenizer palette with
  | text content =>
    rw [decorated_text, decorated_text]
    exact .refl _
  | comment content =>
    rw [decorated_comment, decorated_comment]
    exact .refl _
  | block attrs children =>
    rw [decorated_block]
    exact decoratedBlock_again (Attrs.distinct_of_wellFormed (Node.wellFormed_element_iff.1 valid).1) _
  | span attrs children other nodes named =>
    rw [decorated_span named]
    exact decoratedSpan_again (Attrs.distinct_of_wellFormed (Node.wellFormed_element_iff.1 valid).1) named _
  | around tag attrs children noBlock noSpan same ih =>
    rw [same, decorated_around noBlock noSpan, List.map_map]
    refine .element (.refl _) ?_
    rw [List.forall₂_map_left_iff, List.forall₂_map_right_iff, List.forall₂_same]
    exact fun child member => ih child member ((Node.wellFormed_element_iff.1 valid).2 child member)

end Again

section Blocks

variable {tokenizer : Tokenizer} {palette : Option Palette}

/-- A decorated code block has the source that it had. -/
theorem keepsSource_block {attrs other : Attrs} {children nodes : List Node}
    (text : textOf nodes = sourceOf attrs (textOf children))
    (kept : other.get? "code" = (keptAttrs attrs (textOf children)).get? "code") :
    Node.KeepsSource (.element "pre" attrs children) (.element "pre" other [innerCode nodes]) := by
  intro code found
  rw [Node.source?] at found
  have named : sourceOf attrs (textOf children) = code := by rw [sourceOf, found, Option.getD_some]
  obtain ⟨value, there, string⟩ := Option.bind_eq_some_iff.1 found
  constructor
  · rw [Node.source?, Attrs.getString?, kept, (get?_keptAttrs attrs (textOf children)).1, there]
    exact string
  · rw [Node.textContent_element (by decide), textOf_innerCode, text, named]

/-- The code blocks of decorated markup are those of the markup that are not part of other code. -/
theorem decorated_keepsSource (node : Node) :
    List.Forall₂ Node.KeepsSource node.outerCodeBlocks (decorated tokenizer palette node).codeBlocks := by
  induction node using decorated_induction tokenizer palette with
  | text content =>
    rw [decorated_text, Node.codeBlocks_text, Node.outerCodeBlocks_text]
    exact .nil
  | comment content =>
    rw [decorated_comment, Node.codeBlocks_comment, Node.outerCodeBlocks_comment]
    exact .nil
  | block attrs children other nodes same text none kept =>
    have inside : (innerCode nodes).codeBlocks = [] := by rw [innerCode, Node.codeBlocks_around (by decide), none]
    rw [Node.outerCodeBlocks_element, if_pos rfl, same, Node.codeBlocks_block, List.flatMap_singleton, inside]
    exact .cons (keepsSource_block text (kept "code" (by decide))) .nil
  | span attrs children other nodes named same text none =>
    rw [Node.outerCodeBlocks_element, if_neg (by decide), if_pos ⟨rfl, named⟩, same,
      Node.codeBlocks_around (by decide), none]
    exact .nil
  | around tag attrs children noBlock noSpan same ih =>
    rw [Node.outerCodeBlocks_element, if_neg noBlock, if_neg noSpan, same, Node.codeBlocks_around noBlock,
      List.flatMap_map]
    exact forall₂_flatMap ih

end Blocks

section Tree

variable (tokenizer : Tokenizer) (choice : ThemeChoice)

theorem decorateTree_idempotent (tree : Tree) (valid : Node.allWellFormed tree.nodes = true) :
    (decorateTree tokenizer choice (decorateTree tokenizer choice tree)).Alike
    (decorateTree tokenizer choice tree) ∧
      List.Forall₂ Node.KeepsSource ((contentOf tree).flatMap Node.outerCodeBlocks)
        ((decorateTree tokenizer choice tree).nodes.flatMap Node.codeBlocks) := by
  constructor
  · refine ⟨Node.allAlike_iff.2 ?_, rfl, rfl⟩
    rw [decorateTree_nodes, contentOf_decorateTree, decorateTree_nodes, List.map_map]
    refine List.rel_append ?_ (List.forall₂_same.2 fun node _ => .refl node)
    rw [List.forall₂_map_left_iff, List.forall₂_map_right_iff, List.forall₂_same]
    exact fun node member => decorated_again (Node.allWellFormed_iff.1 valid node (List.mem_of_mem_filter member))
  · have sheet : (sheetOf choice).flatMap Node.codeBlocks = [] := by
      rcases sheetOf_cases choice with none | ⟨css, single⟩
      · rw [none, List.flatMap_nil]
      · rw [single, List.flatMap_singleton, Node.codeBlocks_around (by decide), List.flatMap_singleton,
          Node.codeBlocks_text]
    rw [decorateTree_nodes, List.flatMap_append, sheet, List.append_nil, List.flatMap_map]
    exact forall₂_flatMap fun node _ => decorated_keepsSource node

/-- Decorated code with a class of another kind, a style sheet in a component, and more than one at the top. -/
theorem decorateTree_idempotent_page :
    let page : List Node :=
      [.element "style" [] [],
        .element "pre" [("language", .str "c"), ("class", .null), ("code", .str "a")] [],
        .element "card" [] [.element "style" [] [.text "b"],
          .element "pre" [("class", .str "mdc-highlight wide  mdc-highlight"), ("style", .str "x")] [.text "a\nb"]],
        .element "style" [] []]
    let written : Tree := .ofNodes
      [.element "pre" [("language", .str "c"), ("class", .str "mdc-highlight"), ("code", .str "a")] [innerCode
          [.element "span" [("class", .str "line")]
            [.element "span" [("style", .str "color:#323232;--mdc-dark:#c0c5ce")] [.text "a"]]]],
        .element "card" [] [.element "style" [] [.text "b"],
          .element "pre" [("class", .str "wide"), ("code", .str "a\nb")] [innerCode [.text "a\nb"]]],
        .element "style" []
          [.text "html.dark .mdc-highlight span \x7b color: var(--mdc-dark) !important; \x7d"]]
    Node.allWellFormed page = true ∧
      (decorateTree .plain (.ofVariants "InspiredGitHub" [("dark", "base16-ocean.dark")]) written).Alike written := by
  intro page written
  have valid : Node.allWellFormed page = true := by decide
  exact ⟨valid, (decorateTree_idempotent .plain (.ofVariants "InspiredGitHub" [("dark", "base16-ocean.dark")])
    (.ofNodes page) valid).1⟩

end Tree

end Highlight

end ComponentMarkdown
