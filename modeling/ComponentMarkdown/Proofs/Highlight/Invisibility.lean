import ComponentMarkdown.Platform
import ComponentMarkdown.Proofs.Doc.ReadLinks
import ComponentMarkdown.Proofs.Highlight.Decoration

namespace ComponentMarkdown

namespace Node

/-- Whether a code block that carries its source has it as its text. -/
def textIsSource (node : Node) : Bool :=
  match node.source? with
  | some code => node.textContent = code
  | none => true

/-- Whether an element is code inside a line that names its language. -/
def namesLanguage : Node → Bool
  | element tag attrs _ => tag = "code" && attrs.contains "language"
  | _ => false

/-- Whether a node, if it is code that names its language, holds nothing but text. -/
def codeIsText : Node → Bool
  | node@(element _ _ children) => !node.namesLanguage || areMarkedText children
  | _ => true

/-- Whether the code in a node, if it is a link, holds nothing but text. -/
def linkedCodeIsText : Node → Bool
  | node@(element tag _ _) => tag ≠ "a" || node.inOrder.all codeIsText
  | _ => true

end Node

namespace Highlight

open Node (textOf textOf_cons textOf_nil)

mutual

/-- Whether the links that are read in a node stay formatting, or nodes of their own, when the code in them is
decorated. -/
def keepsLinks (tokenizer : Tokenizer) (palette : Option Palette) : Node → Bool
  | .element tag _ children =>
    !(TagKind.ofTag tag).readsChildren ||
      ((TagKind.ofTag tag ≠ .mark .link ||
          Node.areMarkedText (decoratedList tokenizer palette children) = Node.areMarkedText children) &&
        keepAllLinks tokenizer palette children)
  | _ => true

def keepAllLinks (tokenizer : Tokenizer) (palette : Option Palette) : List Node → Bool
  | [] => true
  | node :: rest => keepsLinks tokenizer palette node && keepAllLinks tokenizer palette rest

end

section Node

variable {tokenizer : Tokenizer} {palette : Option Palette}

theorem keepAllLinks_iff {nodes : List Node} :
    keepAllLinks tokenizer palette nodes = true ↔ ∀ node ∈ nodes, keepsLinks tokenizer palette node = true := by
  induction nodes with
  | nil => simp [keepAllLinks]
  | cons node rest ih => rw [keepAllLinks, Bool.and_eq_true, ih, List.forall_mem_cons]

theorem textOf_map_congr {f : Node → Node} {nodes : List Node}
    (same : ∀ node ∈ nodes, (f node).textContent = node.textContent) :
    textOf (nodes.map f) = textOf nodes := by
  induction nodes with
  | nil => rfl
  | cons node rest ih =>
    obtain ⟨here, below⟩ := List.forall_mem_cons.1 same
    rw [List.map_cons, textOf_cons, textOf_cons, here, ih below]

/-- The code blocks of a child are code blocks of the element. -/
theorem codeBlocks_child {tag : String} {attrs : Attrs} {children : List Node} {child block : Node}
    (member : child ∈ children)
    (inside : block ∈ child.codeBlocks) : block ∈ (Node.element tag attrs children).codeBlocks := by
  have below : block ∈ children.flatMap Node.codeBlocks := List.mem_flatMap.2 ⟨child, member, inside⟩
  by_cases code : tag = "pre"
  · subst code
    rw [Node.codeBlocks_block]
    exact List.mem_cons_of_mem _ below
  · rw [Node.codeBlocks_around code]
    exact below

/-- Decoration keeps the text of a node if code blocks have their source as their text. -/
theorem textContent_decorated {node : Node} (sources : ∀ block ∈ node.codeBlocks, block.textIsSource = true) :
    (decorated tokenizer palette node).textContent = node.textContent := by
  induction node using decorated_induction tokenizer palette with
  | text content => rw [decorated_text]
  | comment content => rw [decorated_comment]
  | block attrs children other nodes same text =>
    rw [Node.codeBlocks_block] at sources
    have here := (List.forall_mem_cons.1 sources).1
    rw [same, Node.textContent_element (by decide), textOf_innerCode, text,
      Node.textContent_element (by decide), sourceOf]
    rw [Node.textIsSource, Node.source?, Node.textContent_element (by decide)] at here
    cases found : attrs.getString? "code" with
    | none => rfl
    | some code =>
      rw [found] at here
      exact (of_decide_eq_true here).symm
  | span attrs children other nodes named same text =>
    rw [same, Node.textContent_element (by decide), text, Node.textContent_element (by decide)]
  | around tag attrs children noBlock noSpan same ih =>
    have below : textOf (children.map (decorated tokenizer palette)) = textOf children :=
      textOf_map_congr fun child member => ih child member fun block inside =>
        sources block (codeBlocks_child member inside)
    rw [same, Node.textContent, Node.textContent, below]

end Node

section Reading

open Reading (Same)

variable {tokenizer : Tokenizer} {palette : Option Palette} {emoji : Bool} {attrs other : Attrs}
  {children nodes : List Node}

/-- Code blocks with the same source and descriptions are read as the same. -/
theorem same_block [Surroundings]
    (kept : ∀ key, key ≠ "class" → other.get? key = (keptAttrs attrs (textOf children)).get? key)
    (text : textOf nodes = sourceOf attrs (textOf children)) :
    Same ((Node.element "pre" other nodes).reading emoji) ((Node.element "pre" attrs children).reading emoji) := by
  have spoken : ∀ key, key ≠ "class" → key ≠ "style" → key ≠ "code" →
      Reading.spoken? other key = Reading.spoken? attrs key := by
    intro key noClass noStyle noCode
    rw [Reading.spoken?, Attrs.getString?, kept key noClass, keptAttrs, get?_withSource, if_neg noCode,
      get?_stripped attrs noStyle noClass]
    rfl
  have source : (other.getString? "code").getD (sourceOf attrs (textOf children)) =
      (attrs.getString? "code").getD (textOf children) := sourceOf_again (kept "code" (by decide))
  have block : Reading.codeBlock other (textOf nodes) = Reading.codeBlock attrs (textOf children) := by
    rw [Reading.codeBlock, Reading.codeBlock, text, source, spoken _ (by decide) (by decide) (by decide),
      spoken _ (by decide) (by decide) (by decide), spoken _ (by decide) (by decide) (by decide)]
  rw [Node.reading_element, Node.reading_element]
  refine .ofElement (by decide) ?_ fun inside => absurd inside (by decide)
  simp only [Reading.blockElement, show TagKind.ofTag "pre" = .codeBlock by decide,
    Node.map_node_map_reading, block]

/-- Code inside a line is read as the same if its text and its language are. -/
theorem same_span [Surroundings] (language : other.get? "language" = attrs.get? "language")
    (text : textOf nodes = textOf children) :
    Same ((Node.element "code" other nodes).reading emoji)
    ((Node.element "code" attrs children).reading emoji) := by
  have inline : Reading.inlineElement "code" other (nodes.map (Node.reading emoji)) =
      Reading.inlineElement "code" attrs (children.map (Node.reading emoji)) := by
    funext marks
    simp only [Reading.inlineElement, show TagKind.ofTag "code" = .mark .code by decide, Reading.marked,
      Node.map_node_map_reading, text, Reading.codeText, language]
  rw [Node.reading_element, Node.reading_element]
  refine .ofElement (by decide) ?_ fun _ => inline
  simp only [Reading.blockElement, show TagKind.ofTag "code" = .mark .code by decide, inline]

theorem same_decorated [Surroundings] {node : Node} (sources : ∀ block ∈ node.codeBlocks, block.textIsSource = true)
    (links : keepsLinks tokenizer palette node = true) :
    Same ((decorated tokenizer palette node).reading emoji) (node.reading emoji) := by
  induction node using decorated_induction tokenizer palette with
  | text content =>
    rw [decorated_text]
    exact .refl _
  | comment content =>
    rw [decorated_comment]
    exact .refl _
  | block attrs children other nodes same text noBlocks kept =>
    rw [same]
    exact same_block kept (by rw [textOf_innerCode, text])
  | span attrs children other nodes named same text noBlocks kept =>
    rw [same]
    exact same_span (by rw [kept _ (by decide), get?_stripped attrs (by decide) (by decide)]) text
  | around tag attrs children noBlock noSpan same ih =>
    have below : ∀ child ∈ children, ∀ block ∈ child.codeBlocks, block.textIsSource = true :=
      fun child member block inside => sources block (codeBlocks_child member inside)
    rw [keepsLinks, Bool.or_eq_true, Bool.and_eq_true, Bool.or_eq_true] at links
    rw [same, Node.reading_element, Node.reading_element]
    refine Reading.ofElement_congr ?_ (fun reads => ?_) fun link => ?_
    · rw [Node.map_node_map_reading, Node.map_node_map_reading]
      exact textOf_map_congr fun child member => textContent_decorated (below child member)
    · have kept := keepAllLinks_iff.1 (links.resolve_left (by rw [reads]; decide)).2
      rw [List.map_map, List.forall₂_map_left_iff, List.forall₂_map_right_iff, List.forall₂_same]
      exact fun child member => ih child member (below child member) (kept child member)
    · have here := (links.resolve_left (by rw [link]; decide)).1.resolve_left (by simp [link])
      rw [Node.map_node_map_reading, Node.map_node_map_reading, ← decoratedList_eq_map]
      exact of_decide_eq_true here

end Reading

section Sheet

variable {sheet : Reading} (nothing : sheet.block = pure none) (place : sheet.node.fixedPlacement? = some .block)

include nothing place

/-- What is read as nothing on lines of its own changes nothing at the end of a document. -/
theorem blocksFrom_sheet (items waiting : List Reading) (before : Option Node) :
    Reading.blocksFrom waiting before (items ++ [sheet]) = Reading.blocksFrom waiting before items := by
  induction items generalizing waiting before with
  | nil =>
    have none : Reading.paragraph [] = pure [] := rfl
    simp [Reading.blocksFrom, Node.isInlineBetween_of_block place, nothing, none]
  | cons item rest ih =>
    have next : Node.neighbourPlace ((rest ++ [sheet]).head?.map Reading.node) = some .inline ↔
        Node.neighbourPlace (rest.head?.map Reading.node) = some .inline := by
      cases rest with
      | nil => simp [Node.neighbourPlace, place]
      | cons => rfl
    have inside : Node.isInlineBetween before item.node ((rest ++ [sheet]).head?.map Reading.node) =
        Node.isInlineBetween before item.node (rest.head?.map Reading.node) := by
      simp only [Node.isInlineBetween_eq, next]
    rw [List.cons_append, Reading.blocksFrom, Reading.blocksFrom, inside, ih, ih]

end Sheet

section Link

open Node (nodeLinks nodeLinksOf nodeLinks_of_unread nodeLinks_of_noLink)

variable {tokenizer : Tokenizer} {palette : Option Palette}

theorem areMarkedText_congr {nodes : List Node}
    (each : ∀ node ∈ nodes, (decorated tokenizer palette node).isMarkedText = node.isMarkedText) :
    Node.areMarkedText (nodes.map (decorated tokenizer palette)) = Node.areMarkedText nodes := by
  rw [Bool.eq_iff_iff, Node.areMarkedText_iff, Node.areMarkedText_iff, List.forall_mem_map]
  exact forall₂_congr fun node member => by rw [each node member]

theorem isMarkedText_decorated {node : Node} (plain : ∀ inner ∈ node.inOrder, inner.namesLanguage = false) :
    (decorated tokenizer palette node).isMarkedText = node.isMarkedText := by
  induction node using decorated_induction tokenizer palette with
  | text content => rw [decorated_text]
  | comment content => rw [decorated_comment]
  | block attrs children other nodes same =>
    rw [same, Node.isMarkedText, Node.isMarkedText, show MarkKind.ofTag? "pre" = none by decide]
  | span attrs children other nodes named =>
    rw [Node.inOrder_element, List.forall_mem_cons] at plain
    simp [Node.namesLanguage, named] at plain
  | around tag attrs children noBlock noSpan same ih =>
    rw [Node.inOrder_element, List.forall_mem_cons] at plain
    have each : ∀ child ∈ children, (decorated tokenizer palette child).isMarkedText = child.isMarkedText :=
      fun child member => ih child member fun inner inside =>
        plain.2 inner (List.mem_flatMap.2 ⟨child, member, inside⟩)
    rw [same, Node.isMarkedText, Node.isMarkedText, areMarkedText_congr each]

/-- Links stay what they are if there is no code in them that names a language. -/
theorem keepsLinks_of_noLanguage {node : Node} (plain : ∀ link ∈ node.inOrder, link.tag? = some "a" →
    ∀ inner ∈ link.inOrder, inner.namesLanguage = false) : keepsLinks tokenizer palette node = true := by
  induction node using Node.induction with
  | text content => simp [keepsLinks]
  | comment content => simp [keepsLinks]
  | element tag attrs children ih =>
    rw [Node.inOrder_element, List.forall_mem_cons] at plain
    obtain ⟨here, below⟩ := plain
    have kept : keepAllLinks tokenizer palette children = true := keepAllLinks_iff.2 fun child member =>
      ih child member fun link inside => below link (List.mem_flatMap.2 ⟨child, member, inside⟩)
    have same : TagKind.ofTag tag = .mark .link →
        Node.areMarkedText (decoratedList tokenizer palette children) = Node.areMarkedText children := by
      intro link
      have inner := here (congrArg some (TagKind.ofTag_eq_mark_iff.1 link))
      rw [Node.inOrder_element] at inner
      rw [decoratedList_eq_map]
      refine areMarkedText_congr fun child member => isMarkedText_decorated fun node inside => ?_
      exact inner node (List.mem_cons_of_mem _ (List.mem_flatMap.2 ⟨child, member, inside⟩))
    rw [keepsLinks, kept, Bool.and_true]
    by_cases link : TagKind.ofTag tag = .mark .link
    · simp [same link]
    · simp [link]

theorem areMarkedText_of_decorated {nodes : List Node}
    (each : ∀ node ∈ nodes, (decorated tokenizer palette node).isMarkedText = true → node.isMarkedText = true)
    (marked : Node.areMarkedText (nodes.map (decorated tokenizer palette)) = true) :
    Node.areMarkedText nodes = true := by
  rw [Node.areMarkedText_iff, List.forall_mem_map] at marked
  exact Node.areMarkedText_iff.2 fun node member => each node member (marked node member)

/-- Decoration makes no formatting of what was more, if code holds nothing but text. -/
theorem isMarkedText_of_decorated {node : Node} (code : ∀ inner ∈ node.inOrder, inner.codeIsText = true)
    (marked : (decorated tokenizer palette node).isMarkedText = true) : node.isMarkedText = true := by
  induction node using decorated_induction tokenizer palette with
  | text content => rw [Node.isMarkedText]
  | comment content =>
    rw [decorated_comment, Node.isMarkedText] at marked
    cases marked
  | block attrs children other nodes same =>
    rw [same, Node.isMarkedText, show MarkKind.ofTag? "pre" = none by decide] at marked
    cases marked
  | span attrs children other nodes named =>
    rw [Node.inOrder_element, List.forall_mem_cons] at code
    rw [Node.isMarkedText, show MarkKind.ofTag? "code" = some .code by decide]
    simpa [Node.codeIsText, Node.namesLanguage, named] using code.1
  | around tag attrs children noBlock noSpan same ih =>
    rw [Node.inOrder_element, List.forall_mem_cons] at code
    rw [same, Node.isMarkedText] at marked
    rw [Node.isMarkedText]
    split at marked
    · cases marked
    · cases marked
    · exact areMarkedText_of_decorated (fun child member => ih child member fun inner inside =>
        code.2 inner (List.mem_flatMap.2 ⟨child, member, inside⟩)) marked

/-- Decoration turns no link of a node into formatting, and turns none at all only if it keeps every link. -/
def OnlyAddsLinks (tokenizer : Tokenizer) (palette : Option Palette) (node : Node) : Prop :=
  node.nodeLinks ≤ (decorated tokenizer palette node).nodeLinks ∧
    ((decorated tokenizer palette node).nodeLinks = node.nodeLinks ↔ keepsLinks tokenizer palette node = true)

theorem onlyAddsLinks_of_unread {node : Node} (before : node.nodeLinks = 0)
    (behind : (decorated tokenizer palette node).nodeLinks = 0) (kept : keepsLinks tokenizer palette node = true) :
    OnlyAddsLinks tokenizer palette node := by
  rw [OnlyAddsLinks, before, behind, kept]
  exact ⟨le_rfl, iff_of_true rfl rfl⟩

theorem nodeLinksOf_map_decorated {nodes : List Node}
    (each : ∀ node ∈ nodes, OnlyAddsLinks tokenizer palette node) :
    nodeLinksOf nodes ≤ nodeLinksOf (nodes.map (decorated tokenizer palette)) ∧
      (nodeLinksOf (nodes.map (decorated tokenizer palette)) = nodeLinksOf nodes ↔
        keepAllLinks tokenizer palette nodes = true) := by
  induction nodes with
  | nil => simp [keepAllLinks]
  | cons node rest ih =>
    obtain ⟨⟨less, kept⟩, below⟩ := List.forall_mem_cons.1 each
    obtain ⟨less', kept'⟩ := ih below
    rw [List.map_cons, nodeLinksOf, nodeLinksOf, keepAllLinks, Bool.and_eq_true, ← kept, ← kept']
    omega

theorem onlyAddsLinks {node : Node} (code : ∀ inner ∈ node.inOrder, inner.linkedCodeIsText = true) :
    OnlyAddsLinks tokenizer palette node := by
  induction node using decorated_induction tokenizer palette with
  | text content =>
    exact onlyAddsLinks_of_unread (by simp only [nodeLinks]) (by rw [decorated_text]; simp only [nodeLinks])
      (by simp only [keepsLinks])
  | comment content =>
    exact onlyAddsLinks_of_unread (by simp only [nodeLinks]) (by rw [decorated_comment]; simp only [nodeLinks])
      (by simp only [keepsLinks])
  | block attrs children other nodes same =>
    exact onlyAddsLinks_of_unread (nodeLinks_of_unread (by decide) _ _)
      (by rw [same, nodeLinks_of_unread (by decide)]) (by rw [keepsLinks]; rfl)
  | span attrs children other nodes named same =>
    exact onlyAddsLinks_of_unread (nodeLinks_of_unread (by decide) _ _)
      (by rw [same, nodeLinks_of_unread (by decide)]) (by rw [keepsLinks]; rfl)
  | around tag attrs children noBlock noSpan same ih =>
    rw [Node.inOrder_element, List.forall_mem_cons] at code
    obtain ⟨here, below⟩ := code
    obtain ⟨less, kept⟩ := @nodeLinksOf_map_decorated tokenizer palette children fun child member =>
      ih child member fun link inside => below link (List.mem_flatMap.2 ⟨child, member, inside⟩)
    cases read : (TagKind.ofTag tag).readsChildren with
    | false =>
      exact onlyAddsLinks_of_unread (nodeLinks_of_unread read _ _) (by rw [same, nodeLinks_of_unread read])
        (by rw [keepsLinks, read]; rfl)
    | true =>
      by_cases link : TagKind.ofTag tag = .mark .link
      · have inner : ∀ node ∈ (Node.element tag attrs children).inOrder, node.codeIsText = true := by
          obtain rfl : tag = "a" := TagKind.ofTag_eq_mark_iff.1 link
          simpa [Node.linkedCodeIsText] using here
        rw [Node.inOrder_element, List.forall_mem_cons] at inner
        have text : Node.areMarkedText (children.map (decorated tokenizer palette)) = true →
            Node.areMarkedText children = true := areMarkedText_of_decorated fun child member =>
          isMarkedText_of_decorated fun node inside => inner.2 node (List.mem_flatMap.2 ⟨child, member, inside⟩)
        rw [OnlyAddsLinks, same, nodeLinks, nodeLinks, keepsLinks, decoratedList_eq_map, if_pos read, if_pos read,
          read]
        simp only [link, true_and, Bool.not_true, Bool.false_or, ne_eq, not_true_eq_false, decide_false,
          Bool.and_eq_true, decide_eq_true_eq, ← kept]
        cases before : Node.areMarkedText children with
        | true =>
          cases behind : Node.areMarkedText (children.map (decorated tokenizer palette)) with
          | true => simpa using less
          | false =>
            simp only [Bool.true_eq_false, Bool.false_eq_true, if_false, if_true, false_and, iff_false]
            omega
        | false =>
          cases behind : Node.areMarkedText (children.map (decorated tokenizer palette)) with
          | true => exact absurd (text behind) (by rw [before]; decide)
          | false => simpa using less
      · rw [OnlyAddsLinks, same, nodeLinks_of_noLink read link, nodeLinks_of_noLink read link, keepsLinks, read]
        exact ⟨less, by simpa [link] using kept⟩

/-- A link is read as text only if it is formatting, otherwise as a node of its own. -/
theorem line_link [Surroundings] (attrs : Attrs) (children : List Node) (emoji : Bool) :
    Slugged.Gives (fun docs => docs.all DocNode.isPlainText = Node.areMarkedText children)
      (Reading.line ([Node.element "a" attrs children].map (Node.reading emoji))) := by
  cases marked : Node.areMarkedText children with
  | true =>
    have formatted : Node.areFormattedText [.element "a" attrs children] = true := by
      rw [Node.areFormattedText_iff, List.forall_mem_singleton, Node.isFormattedText, Node.mark?]
      simp only [show MarkKind.ofTag? "a" = some .link by decide, marked, if_true]
      rw [Bool.or_eq_true, Node.areFormattedText_iff]
      exact Or.inr fun child member =>
        Node.isFormattedText_of_isMarkedText (Node.areMarkedText_iff.1 marked child member)
    exact (Reading.line_plainText emoji formatted).weaken fun docs plain => plain.1
  | false =>
    have inline : ((Node.element "a" attrs children).reading emoji).inline [] =
        (do return [← Reading.linkNode attrs (children.map (Node.reading emoji)) []]) := by
      rw [Node.inline_element (by decide)]
      simp only [Reading.inlineElement, show TagKind.ofTag "a" = .mark .link by decide, Reading.marked,
        Node.map_node_map_reading, marked, Bool.false_eq_true, if_false]
    intro registry
    rw [List.map_singleton, Reading.line, Reading.inlines, inline]
    rfl

theorem nodeLinks_decorated_eq_zero {node : Node} (none : ∀ inner ∈ node.inOrder, inner.tag? ≠ some "a") :
    (decorated tokenizer palette node).nodeLinks = 0 := by
  have kept : keepsLinks tokenizer palette node = true :=
    keepsLinks_of_noLanguage fun link inside isLink => absurd isLink (none link inside)
  have code : ∀ inner ∈ node.inOrder, inner.linkedCodeIsText = true := by
    intro inner inside
    cases inner with
    | text | comment => rfl
    | element tag attrs children =>
      have noLink : tag ≠ "a" := fun link => none _ inside (congrArg some link)
      simp [Node.linkedCodeIsText, noLink]
  rw [(onlyAddsLinks code).2.2 kept, Node.nodeLinks_eq_zero none]

theorem readsLinks_decorated [Surroundings] (emoji : Bool) {node : Node}
    (html : ∀ inner ∈ node.inOrder, inner.htmlHasNoLinks = true) :
    (decorated tokenizer palette node).ReadsLinks emoji := by
  induction node using decorated_induction tokenizer palette with
  | text content =>
    rw [decorated_text]
    exact Node.readsLinks_text emoji content
  | comment content =>
    rw [decorated_comment]
    exact Node.readsLinks_comment emoji content
  | block attrs children other nodes same =>
    rw [same]
    exact Node.readsLinks_element (fun read => absurd read (by decide)) (fun html => absurd html (by decide)) other
  | span attrs children other nodes named same =>
    rw [same]
    exact Node.readsLinks_element (fun read => absurd read (by decide)) (fun html => absurd html (by decide)) other
  | around tag attrs children noBlock noSpan same ih =>
    rw [Node.inOrder_element, List.forall_mem_cons] at html
    obtain ⟨here, below⟩ := html
    rw [same]
    refine Node.readsLinks_element (fun _ => List.forall_mem_map.2 fun child member => ih child member
      fun inner inside => below inner (List.mem_flatMap.2 ⟨child, member, inside⟩)) (fun meaning => ?_) attrs
    obtain rfl : tag = "html" := TagKind.tag_eq meaning rfl (by decide)
    exact Node.nodeLinksOf_eq_zero (List.forall_mem_map.2 fun child member =>
      nodeLinks_decorated_eq_zero (Node.noLinks_of_htmlHasNoLinks here child member))

end Link

section Tree

variable (tokenizer : Tokenizer) (choice : ThemeChoice) {tree : Tree}

/-- The style sheet at the end of a decorated tree is not read. -/
theorem ofTree_decorateTree_eq [Surroundings] (shown : ∀ node ∈ tree.nodes, node.tag? ≠ some "style")
    (emoji : Bool) : Doc.ofTree (decorateTree tokenizer choice tree) emoji =
      Doc.ofTree { tree with nodes := tree.nodes.map (decorated tokenizer choice.palette?) } emoji := by
  have all : contentOf tree = tree.nodes := List.filter_eq_self.2 (by simpa using shown)
  rw [Doc.ofTree_eq, Doc.ofTree_eq, decorateTree_nodes, all, List.map_append]
  have blocks : Reading.blocks ((tree.nodes.map (decorated tokenizer choice.palette?)).map (Node.reading emoji) ++
      (sheetOf choice).map (Node.reading emoji)) =
      Reading.blocks ((tree.nodes.map (decorated tokenizer choice.palette?)).map (Node.reading emoji)) := by
    rcases sheetOf_cases choice with none | ⟨css, single⟩
    · rw [none, List.map_nil, List.append_nil]
    · rw [single, List.map_singleton]
      refine blocksFrom_sheet ?_ ?_ _ _ _
      · rw [Node.reading_element]
        rfl
      · rw [Node.reading_node]
        rfl
  rw [blocks]
  rfl

/-- Decoration is not seen by the editor if every link stays the kind of link that it is. It is seen as soon as one
turns into another kind, in a paragraph of one link and wherever code in links holds nothing but text and HTML has
no links in it. -/
theorem ofTree_decorateTree [Surroundings] (tree : Tree) (emoji : Bool)
    (shown : ∀ node ∈ tree.nodes, node.tag? ≠ some "style")
    (sources : ∀ block ∈ tree.nodes.flatMap Node.codeBlocks, block.textIsSource = true) :
    (keepAllLinks tokenizer choice.palette? tree.nodes = true →
        Doc.ofTree (decorateTree tokenizer choice tree) emoji = Doc.ofTree tree emoji) ∧
      (∀ attrs link children, tree.nodes = [.element "p" attrs [.element "a" link children]] →
        Node.areMarkedText (decoratedList tokenizer choice.palette? children) ≠ Node.areMarkedText children →
        Doc.ofTree (decorateTree tokenizer choice tree) emoji ≠ Doc.ofTree tree emoji) ∧
      ((∀ node ∈ tree.nodes.flatMap Node.inOrder, node.linkedCodeIsText = true ∧ node.htmlHasNoLinks = true) →
        (Doc.ofTree (decorateTree tokenizer choice tree) emoji = Doc.ofTree tree emoji ↔
          keepAllLinks tokenizer choice.palette? tree.nodes = true)) := by
  rw [ofTree_decorateTree_eq tokenizer choice shown]
  have kept : keepAllLinks tokenizer choice.palette? tree.nodes = true →
      Doc.ofTree { tree with nodes := tree.nodes.map (decorated tokenizer choice.palette?) } emoji =
        Doc.ofTree tree emoji := by
    intro links
    have same : List.Forall₂ Reading.Same
        ((tree.nodes.map (decorated tokenizer choice.palette?)).map (Node.reading emoji))
        (tree.nodes.map (Node.reading emoji)) := by
      rw [List.map_map, List.forall₂_map_left_iff, List.forall₂_map_right_iff, List.forall₂_same]
      exact fun node member => same_decorated
        (fun block inside => sources block (List.mem_flatMap.2 ⟨node, member, inside⟩))
        (keepAllLinks_iff.1 links node member)
    rw [Doc.ofTree_eq, Doc.ofTree_eq, Reading.blocks_congr same]
    rfl
  refine ⟨kept, fun attrs link children single turned same => ?_, fun plain => ⟨fun same => ?_, kept⟩⟩
  · have decoration : tree.nodes.map (decorated tokenizer choice.palette?) = [.element "p" attrs [.element "a" link
        (decoratedList tokenizer choice.palette? children)]] := by
      rw [single, List.map_singleton, decorated_around (by decide) (by simp), List.map_singleton,
        decorated_around (by decide) (by simp), decoratedList_eq_map]
    rw [Doc.ofTree_paragraph_eq decoration, Doc.ofTree_paragraph_eq single] at same
    simp only [Doc.mk.injEq, List.cons.injEq, DocNode.paragraph.injEq] at same
    have before := line_link link children emoji .empty
    have behind := line_link link (decoratedList tokenizer choice.palette? children) emoji .empty
    exact turned (behind.symm.trans (by rw [same.2.1.2, before]))
  · have inside : ∀ node ∈ tree.nodes, ∀ inner ∈ node.inOrder,
        inner.linkedCodeIsText = true ∧ inner.htmlHasNoLinks = true :=
      fun node member inner below => plain inner (List.mem_flatMap.2 ⟨node, member, below⟩)
    have before := @Doc.linkCount_ofTree _ tree emoji fun node member =>
      Node.readsLinks emoji fun inner below => (inside node member inner below).2
    have behind := @Doc.linkCount_ofTree _
      { tree with nodes := tree.nodes.map (decorated tokenizer choice.palette?) } emoji
      (List.forall_mem_map.2 fun node member =>
        readsLinks_decorated emoji fun inner below => (inside node member inner below).2)
    rw [same, before] at behind
    exact (nodeLinksOf_map_decorated fun node member =>
      onlyAddsLinks fun inner below => (inside node member inner below).1).2.1 behind.symm

/-- A code block with its source, code beside a link, and code in a link that the image in it makes a node
anyway. -/
theorem ofTree_decorateTree_page :
    letI : Surroundings := .platform
    let page : Tree := .ofNodes
      [.element "pre" [("language", .str "c"), ("code", .str "a\nb")] [.element "code" [] [.text "a\nb"]],
        .element "p" [] [.element "code" [("language", .str "c")] [.text "x"], .element "a" [] [.text "y"]],
        .element "a" [] [.element "img" [] [], .element "code" [("language", .str "c")] [.text "z"]]]
    let choice := ThemeChoice.ofVariants "InspiredGitHub" [("dark", "base16-ocean.dark")]
    Doc.ofTree (decorateTree .plain choice page) true = Doc.ofTree page true :=
  ((@ofTree_decorateTree .plain _ .platform _ true (by decide) (by decide)).2.2 (by decide)).2 (by decide)

/-- A link with code that names a language is formatting before decoration, and a node behind it. -/
theorem ofTree_decorateTree_link :
    letI : Surroundings := .platform
    let page : Tree := .ofNodes [.element "p" [] [.element "a" [("href", .str "/x")]
      [.element "code" [("language", .str "zzz")] [.text "let x"]]]]
    (∀ node ∈ page.nodes, node.tag? ≠ some "style") ∧
      (∀ block ∈ page.nodes.flatMap Node.codeBlocks, block.textIsSource = true) ∧
      Doc.ofTree (decorateTree .plain (.ofVariants ThemeChoice.defaultName []) page) true ≠
        Doc.ofTree page true := by
  refine ⟨by decide, by decide, fun same => ?_⟩
  have links := congrArg (Doc.everywhere fun node => node.typeName ≠ "link") same
  revert links
  decide +kernel

end Tree

end Highlight

end ComponentMarkdown
