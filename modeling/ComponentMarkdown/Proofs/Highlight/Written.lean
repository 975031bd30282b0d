import ComponentMarkdown.Proofs.Highlight.Invisibility
import ComponentMarkdown.Proofs.Markup.Rendering

namespace ComponentMarkdown

namespace AttributeBlock

variable {skip : List String}

theorem parts_append (attrs more : Attrs) : parts (attrs ++ more) skip = parts attrs skip ++ parts more skip :=
  List.flatMap_append

/-- Keys that are not written do not matter. -/
theorem parts_skipped {attrs : Attrs} (skipped : ∀ key ∈ attrs.keys, key ∈ skip) : parts attrs skip = [] := by
  refine List.flatMap_eq_nil_iff.2 fun entry member => ?_
  have listed : entry.1 ∈ attrs.keys := List.mem_map_of_mem member
  exact if_pos (Or.inl (skipped _ listed))

theorem parts_insert {key : String} (skipped : key ∈ skip) (attrs : Attrs) (value : Value) :
    parts (attrs.insert key value) skip = parts attrs skip := by
  induction attrs with
  | nil => exact parts_skipped (by simpa [Attrs.insert, Attrs.keys] using skipped)
  | cons entry rest ih =>
    rw [Attrs.insert]
    split
    · rename_i same
      have before : parts [entry] skip = [] := parts_skipped (by simpa [Attrs.keys, same] using skipped)
      have behind : parts [(entry.1, value)] skip = [] := parts_skipped (by simpa [Attrs.keys, same] using skipped)
      rw [← List.singleton_append, parts_append, behind, ← List.singleton_append, parts_append, before]
    · rw [← List.singleton_append, parts_append, ih, ← parts_append, List.singleton_append]

end AttributeBlock

namespace Highlight

open Node (render textOf)

section Attributes

/-- The keys that decoration changes. -/
def decoratedKeys : List String := ["class", "style"]

theorem parts_stripped (attrs : Attrs) :
    AttributeBlock.parts (stripped attrs) decoratedKeys = AttributeBlock.parts attrs decoratedKeys := by
  have each : ∀ entry, AttributeBlock.parts (strippedEntry entry) decoratedKeys =
      AttributeBlock.parts [entry] decoratedKeys := by
    intro entry
    by_cases changed : entry.1 ∈ decoratedKeys
    · have before : AttributeBlock.parts [entry] decoratedKeys = [] :=
        AttributeBlock.parts_skipped (by simpa [Attrs.keys] using changed)
      have left : AttributeBlock.parts (strippedEntry entry) decoratedKeys = [] := by
        refine AttributeBlock.parts_skipped fun key member => ?_
        have same := List.mem_singleton.1 ((strippedEntry_keys entry).subset member)
        rwa [same]
      rw [before, left]
    · simp only [decoratedKeys, List.mem_cons, List.not_mem_nil, or_false, not_or] at changed
      rw [strippedEntry_eq_self changed.2 fun _ _ => changed.1]
  rw [stripped_eq]
  induction attrs with
  | nil => rfl
  | cons entry rest ih =>
    rw [List.flatMap_cons, AttributeBlock.parts_append, ih,
      each, ← AttributeBlock.parts_append, List.singleton_append]

theorem write_stripped (attrs : Attrs) :
    AttributeBlock.write (stripped attrs) decoratedKeys = AttributeBlock.write attrs decoratedKeys := by
  rw [AttributeBlock.write, AttributeBlock.write, parts_stripped]

theorem write_withClass (attrs : Attrs) :
    AttributeBlock.write (withClass attrs) decoratedKeys = AttributeBlock.write attrs decoratedKeys := by
  have skipped : "class" ∈ decoratedKeys := by decide
  rw [AttributeBlock.write, AttributeBlock.write, withClass, AttributeBlock.parts_insert skipped]

end Attributes

section Line

variable {tokenizer : Tokenizer} {palette : Option Palette}

theorem inline_render_code (attrs : Attrs) (children : List Node) (afterBacktick : Bool) :
    (Node.element "code" attrs children).render.rendering.inline afterBacktick =
      CodeFence.writeSpan afterBacktick (textOf children).toList ++ AttributeBlock.write attrs decoratedKeys := by
  rw [render]
  rfl

/-- Code inside a line is written with its text, and without its class and its style. -/
theorem inline_decoratedSpan (attrs : Attrs) (children : List Node) (afterBacktick : Bool) :
    (decoratedSpan tokenizer palette attrs (textOf children)).render.rendering.inline afterBacktick =
      (Node.element "code" attrs children).render.rendering.inline afterBacktick := by
  rw [inline_render_code]
  cases found : coloured? tokenizer palette inlineNodes (some ((attrs.getString? "language").getD ""))
        (textOf children) with
  | some nodes =>
    rw [decoratedSpan_of_some found, inline_render_code, textOf_coloured textOf_inlineNodes found, write_withClass,
      write_stripped]
  | none =>
    rw [decoratedSpan_of_none found, inline_render_code, Node.textOf_cons, Node.textOf_nil, Node.textContent_text,
      String.append_empty, write_stripped]

theorem inlines_congr {f : Node → Node} {nodes : List Node}
    (each : ∀ node ∈ nodes, ∀ afterBacktick,
      (f node).render.rendering.inline afterBacktick = node.render.rendering.inline afterBacktick)
    (afterBacktick : Bool) :
    Writer.inlines afterBacktick ((nodes.map f).map render) = Writer.inlines afterBacktick (nodes.map render) := by
  induction nodes generalizing afterBacktick with
  | nil => rfl
  | cons node rest ih =>
    obtain ⟨here, below⟩ := List.forall_mem_cons.1 each
    simp only [List.map_cons, Writer.inlines, here, ih below]

theorem inlineElement_congr {items other : List Rendered}
    (same : Writer.inlines false other = Writer.inlines false items) (empty : other.isEmpty = items.isEmpty)
    (tag : String) (attrs : Attrs) (text : String) (afterBacktick : Bool) :
    Writer.inlineElement tag attrs text other afterBacktick =
      Writer.inlineElement tag attrs text items afterBacktick := by
  simp only [Writer.inlineElement, Writer.delimited, Writer.inlineComponent, same, empty]

/-- A node without code blocks is written inside a line as if it were not decorated. -/
theorem inline_decorated {node : Node} (none : node.codeBlocks = []) (afterBacktick : Bool) :
    (decorated tokenizer palette node).render.rendering.inline afterBacktick =
      node.render.rendering.inline afterBacktick := by
  induction node using decorated_induction tokenizer palette generalizing afterBacktick with
  | text content => rw [decorated_text]
  | comment content => rw [decorated_comment]
  | block attrs children =>
    rw [Node.codeBlocks_block] at none
    cases none
  | span attrs children other nodes named => rw [decorated_span named, inline_decoratedSpan]
  | around tag attrs children noBlock noSpan same ih =>
    rw [Node.codeBlocks_around noBlock, List.flatMap_eq_nil_iff] at none
    have items := inlines_congr fun child member => ih child member (none child member)
    have text : textOf (children.map (decorated tokenizer palette)) = textOf children :=
      textOf_map_congr fun child member => textContent_decorated fun block inside => by
        rw [none child member] at inside
        cases inside
    rw [same, render, render, Node.renderAll_eq_map, Node.renderAll_eq_map, text]
    exact inlineElement_congr (items false) (by simp) tag attrs _ afterBacktick

end Line

end Highlight

namespace Node

/-- The tags whose content is a line of text, or a text that is written as it stands. -/
def lineTags : List String := ["p", "h1", "h2", "h3", "h4", "h5", "h6", "html"]

/-- The tags of which no child is written as a block of its own. -/
def leafTags : List String := ["pre", "hr", "style"]

mutual

/-- Whether the code blocks in a node that stands on lines of its own do so too: none is below an element that is
written inside a line, or below plain markup. -/
def isCodeApart : Node → Bool
  | .element tag _ children =>
    if tag ∈ leafTags then true
    else if tag ∈ lineTags then (children.flatMap codeBlocks).isEmpty
    else if tag = "ul" ∨ tag = "ol" then areItemsCodeApart children
    else areCodeApart none children
  | _ => true

/-- The same for a sibling list with a node in front of it. -/
def areCodeApart (before : Option Node) : List Node → Bool
  | [] => true
  | node :: rest =>
    (if isInlineBetween before node rest.head? then node.codeBlocks.isEmpty else node.isCodeApart) &&
      areCodeApart (some node) rest

/-- The same for the items of a list, each of which stands alone. -/
def areItemsCodeApart : List Node → Bool
  | [] => true
  | node :: rest =>
    (if isInlineBetween none node none then node.codeBlocks.isEmpty else node.isCodeApart) && areItemsCodeApart rest

end

theorem areItemsCodeApart_iff {items : List Node} :
    areItemsCodeApart items = true ↔ ∀ item ∈ items, areCodeApart none [item] = true := by
  induction items with
  | nil => simp [areItemsCodeApart]
  | cons item rest ih =>
    rw [areItemsCodeApart, List.forall_mem_cons, Bool.and_eq_true, ih, areCodeApart, areCodeApart, Bool.and_true]
    rfl

/-- A block falls out of a sibling list, and what is behind it is judged as if nothing stood in front. -/
theorem areCodeApart_split {node : Node} (place : node.fixedPlacement? = some .block) {front rest : List Node}
    {before : Option Node} (apart : areCodeApart before (front ++ node :: rest) = true) :
    areCodeApart before front = true ∧ node.isCodeApart = true ∧ areCodeApart none rest = true := by
  have noInline : node.fixedPlacement? ≠ some .inline := by simp [place]
  induction front generalizing before with
  | nil =>
    rw [List.nil_append, areCodeApart, isInlineBetween_of_block place, Bool.and_eq_true] at apart
    refine ⟨by rw [areCodeApart], apart.1, ?_⟩
    cases rest with
    | nil => rw [areCodeApart]
    | cons next more =>
      have behind := apart.2
      rw [areCodeApart, isInlineBetween_behind noInline] at behind
      rwa [areCodeApart]
  | cons first more ih =>
    rw [List.cons_append, areCodeApart, isInlineBetween_head?_append noInline, Bool.and_eq_true] at apart
    obtain ⟨here, below⟩ := apart
    obtain ⟨inFront, own, behind⟩ := ih below
    exact ⟨by rw [areCodeApart, here, inFront, Bool.and_self], own, behind⟩

/-- Whether a node is code that decoration changes. -/
def isCode (node : Node) : Bool := node.tag? = some "pre" || node.namesLanguage

/-- Whether a list is as loose as its items other than code make it. -/
def isLooseByItems : Node → Bool
  | .element tag _ items => (tag ≠ "ul" && tag ≠ "ol") ||
      items.any Writer.holdsParagraph = items.any fun item => !item.isCode && Writer.holdsParagraph item
  | _ => true

end Node

namespace Highlight

open Node (render textOf)

section Place

variable {tokenizer : Tokenizer} {palette : Option Palette}

theorem fixedPlacement?_decorated (node : Node) :
    (decorated tokenizer palette node).fixedPlacement? = node.fixedPlacement? := by
  cases node with
  | text content => rw [decorated_text]
  | comment content => rw [decorated_comment]
  | element tag attrs children =>
    have same := tag?_decorated tokenizer palette (.element tag attrs children)
    generalize decorated tokenizer palette (.element tag attrs children) = other at same
    cases other with
    | text | comment => cases same
    | element => rw [Node.fixedPlacement?, Node.fixedPlacement?, Option.some.inj same]

theorem isInlineBetween_decorated (before : Option Node) (node : Node) (after : Option Node) :
    Node.isInlineBetween (before.map (decorated tokenizer palette)) (decorated tokenizer palette node)
      (after.map (decorated tokenizer palette)) = Node.isInlineBetween before node after := by
  have place : ∀ neighbour : Option Node,
      Node.neighbourPlace (neighbour.map (decorated tokenizer palette)) = Node.neighbourPlace neighbour := by
    intro neighbour
    cases neighbour with
    | none => rfl
    | some node => exact fixedPlacement?_decorated node
  rw [Node.isInlineBetween_eq, Node.isInlineBetween_eq, fixedPlacement?_decorated, place, place]

theorem slotName?_decorated (node : Node) : (decorated tokenizer palette node).slotName? = node.slotName? := by
  by_cases template : node.tag? = some "template"
  · cases node with
    | text | comment => cases template
    | element tag attrs children =>
      cases template
      rw [decorated_around (by decide) (by simp)]
      rfl
  · have other : ∀ node : Node, node.tag? ≠ some "template" → node.slotName? = none := by
      intro node other
      cases node with
      | text | comment => rfl
      | element tag attrs children =>
        rw [Node.slotName?, if_neg]
        rintro rfl
        exact other rfl
    rw [other node template, other _ (by rwa [tag?_decorated])]

theorem isParagraph_decorated (node : Node) :
    Writer.isParagraph (decorated tokenizer palette node) = Writer.isParagraph node := by
  rw [Writer.isParagraph, Writer.isParagraph, tag?_decorated]

theorem holdsParagraph_inlineNodes (other : Palette) (lines : List Line) (attrs : Attrs) :
    Writer.holdsParagraph (.element "code" attrs (inlineNodes other lines)) = false := by
  rw [Writer.holdsParagraph, List.any_eq_false]
  intro node member
  obtain ⟨line, _, inside⟩ := List.mem_flatMap.1 member
  rcases List.mem_append.1 inside with token | ending
  · obtain ⟨piece, _, rfl⟩ := List.mem_map.1 token
    simp [Writer.isParagraph, StyledText.toNode, Node.tag?]
  · rw [lineEnd] at ending
    split at ending
    · rw [List.mem_singleton.1 ending]
      simp [Writer.isParagraph, Node.tag?]
    · cases ending

/-- Decorated code holds no paragraph. -/
theorem holdsParagraph_decorated (node : Node) :
    Writer.holdsParagraph (decorated tokenizer palette node) = (!node.isCode && Writer.holdsParagraph node) := by
  induction node using decorated_induction tokenizer palette with
  | text content => rw [decorated_text]; rfl
  | comment content => rw [decorated_comment]; rfl
  | block attrs children other nodes same => rw [same]; rfl
  | span attrs children _ _ named =>
    have code : (Node.element "code" attrs children).isCode = true := by
      simp [Node.isCode, Node.namesLanguage, named]
    rw [decorated_span named, code, Bool.not_true, Bool.false_and]
    cases found : coloured? tokenizer palette inlineNodes (some ((attrs.getString? "language").getD ""))
      (textOf children) with
    | some nodes =>
      obtain ⟨other, lines, rfl, _⟩ := exists_lines_of_coloured found
      rw [decoratedSpan_of_some found, holdsParagraph_inlineNodes]
    | none =>
      rw [decoratedSpan_of_none found]
      rfl
  | around tag attrs children noBlock noSpan same ih =>
    have plain : (Node.element tag attrs children).isCode = false := by
      simpa [Node.isCode, Node.tag?, Node.namesLanguage, noBlock] using noSpan
    rw [same, plain]
    simp only [Writer.holdsParagraph, List.any_map, Function.comp_def, isParagraph_decorated, Bool.not_false,
      Bool.true_and]

end Place

section Block

variable (tokenizer : Tokenizer) (palette : Option Palette)

/-- A node that is written on lines of its own, and item by item, as if it were not decorated. -/
structure SameWritten (node : Node) : Prop where
  block : node.fixedPlacement? ≠ some .inline → ∀ depth,
    (decorated tokenizer palette node).render.rendering.block depth = node.render.rendering.block depth
  content : node.tag? = some "li" ∨ node.tag? = some "template" → ∀ depth separator,
    (decorated tokenizer palette node).render.rendering.content depth separator =
      node.render.rendering.content depth separator

variable {tokenizer palette} {nodes : List Node}

theorem blockParts_decorated (each : ∀ node ∈ nodes, node.isCodeApart = true → SameWritten tokenizer palette node)
    {before : Option Node} (apart : Node.areCodeApart before nodes = true) (depth : Nat)
    (line : Option (List Char)) : Writer.blockParts depth line (before.map (decorated tokenizer palette))
        ((nodes.map (decorated tokenizer palette)).map render) =
      Writer.blockParts depth line before (nodes.map render) := by
  induction nodes generalizing before line with
  | nil => rfl
  | cons node rest ih =>
    obtain ⟨here, below⟩ := List.forall_mem_cons.1 each
    rw [Node.areCodeApart, Bool.and_eq_true] at apart
    obtain ⟨own, behind⟩ := apart
    have later := ih below behind
    rw [Option.map_some] at later
    rw [List.map_cons, List.map_cons, List.map_cons, Writer.blockParts, Writer.blockParts, Node.render_node,
      Node.render_node, Node.head?_map_render, Node.head?_map_render, List.head?_map, isInlineBetween_decorated]
    split
    · rename_i inline
      rw [if_pos inline, List.isEmpty_iff] at own
      simp only [inline_decorated own, later]
    · rename_i block
      have noInline : node.fixedPlacement? ≠ some .inline := by
        intro place
        rw [Node.isInlineBetween_eq, place] at block
        exact block rfl
      rw [if_neg block] at own
      simp only [(here own).block noInline, later]

theorem blocks_decorated (each : ∀ node ∈ nodes, node.isCodeApart = true → SameWritten tokenizer palette node)
    (apart : Node.areCodeApart none nodes = true) (depth : Nat) (separator : List Char) :
    Writer.blocks ((nodes.map (decorated tokenizer palette)).map render) depth separator =
      Writer.blocks (nodes.map render) depth separator :=
  congrArg (Text.join separator) (blockParts_decorated each apart depth none)

theorem itemContent_decorated {item : Node} (each : item.isCodeApart = true → SameWritten tokenizer palette item)
    (apart : Node.areCodeApart none [item] = true) (separator : List Char) (depth : Nat) :
    Writer.itemContent separator depth (decorated tokenizer palette item).render =
      Writer.itemContent separator depth item.render := by
  rw [Writer.itemContent, Writer.itemContent, Node.render_node, Node.render_node, tag?_decorated]
  split
  · rename_i listItem
    have place : item.fixedPlacement? = some .block := by
      cases item with
      | text | comment => cases listItem
      | element tag attrs children =>
        cases listItem
        rfl
    obtain ⟨_, own, _⟩ := @Node.areCodeApart_split item place [] [] none apart
    exact (each own).content (Or.inl listItem) depth separator
  · exact blocks_decorated (List.forall_mem_singleton.2 each) apart depth separator

theorem separatorOf_decorated {items : List Node}
    (loose : items.any Writer.holdsParagraph = items.any fun item => !item.isCode && Writer.holdsParagraph item) :
    Writer.separatorOf ((items.map (decorated tokenizer palette)).map render) =
      Writer.separatorOf (items.map render) := by
  have before : (items.map render).any (fun item => Writer.holdsParagraph item.node) =
      items.any Writer.holdsParagraph := by
    simp only [List.any_map, Function.comp_def, Node.render_node]
  have behind : ((items.map (decorated tokenizer palette)).map render).any
      (fun item => Writer.holdsParagraph item.node) = items.any fun item =>
        !item.isCode && Writer.holdsParagraph item := by
    simp only [List.any_map, Function.comp_def, Node.render_node, holdsParagraph_decorated]
  rw [Writer.separatorOf, Writer.separatorOf, before, behind, loose]

/-- A list is written as if the code in it were not decorated, if it is as loose. -/
theorem list_decorated {items : List Node}
    (each : ∀ item ∈ items, item.isCodeApart = true → SameWritten tokenizer palette item)
    (apart : Node.areItemsCodeApart items = true)
    (loose : items.any Writer.holdsParagraph = items.any fun item => !item.isCode && Writer.holdsParagraph item)
    (ordered : Bool) (start depth : Nat) :
    Writer.list ordered start ((items.map (decorated tokenizer palette)).map render) depth =
      Writer.list ordered start (items.map render) depth := by
  have alone := Node.areItemsCodeApart_iff.1 apart
  rw [Writer.list_eq, Writer.list_eq, separatorOf_decorated loose]
  generalize Writer.separatorOf (items.map render) = separator
  rw [List.zipIdx_map, List.zipIdx_map, List.zipIdx_map, List.map_map, List.map_map, List.map_map]
  refine congrArg (Text.join separator) (List.map_congr_left fun entry member => ?_)
  have listed := List.fst_mem_of_mem_zipIdx member
  have same := itemContent_decorated (each _ listed) (alone _ listed) separator depth
  simp only [Function.comp_apply, Prod.map_fst, Prod.map_snd, id, same]

/-- The parts of the body of a component. -/
theorem segments_decorated {run nodes : List Node}
    (each : ∀ node ∈ run.reverse ++ nodes, node.isCodeApart = true → SameWritten tokenizer palette node)
    (apart : Node.areCodeApart none (run.reverse ++ nodes) = true) (depth : Nat) :
    Writer.segments depth ((run.map (decorated tokenizer palette)).map render)
        ((nodes.map (decorated tokenizer palette)).map render) =
      Writer.segments depth (run.map render) (nodes.map render) := by
  have written : ∀ run : List Node,
      (∀ node ∈ run.reverse, node.isCodeApart = true → SameWritten tokenizer palette node) →
      Node.areCodeApart none run.reverse = true →
      (if ((run.map (decorated tokenizer palette)).map render).isEmpty then []
        else [Writer.blocks ((run.map (decorated tokenizer palette)).map render).reverse depth Writer.blankLine]) =
      if (run.map render).isEmpty then [] else [Writer.blocks (run.map render).reverse depth Writer.blankLine] := by
    intro run each apart
    have same := blocks_decorated each apart depth Writer.blankLine
    rw [List.map_reverse, List.map_reverse, List.map_reverse] at same
    rw [same]
    simp only [List.isEmpty_map]
  -- The run holds what stands in front of the nodes, the last one first. A slot is a block, so it ends the run.
  induction nodes generalizing run with
  | nil =>
    rw [List.append_nil] at each apart
    exact written run each apart
  | cons node rest ih =>
    rw [List.map_cons, List.map_cons, List.map_cons, Writer.segments, Writer.segments, Node.render_node,
      Node.render_node, slotName?_decorated]
    cases slot : node.slotName? with
    | none =>
      have shifted : (node :: run).reverse ++ rest = run.reverse ++ node :: rest := by simp
      have later := @ih (node :: run) (by rwa [shifted]) (by rwa [shifted])
      simpa only [List.map_cons] using later
    | some name =>
      have template := Node.template_of_fillsSlot (by rw [Node.fillsSlot, slot]; rfl)
      obtain ⟨inFront, own, behind⟩ := Node.areCodeApart_split template.2 apart
      obtain ⟨eachFront, eachBehind⟩ := List.forall_mem_append.1 each
      obtain ⟨here, below⟩ := List.forall_mem_cons.1 eachBehind
      have body := (here own).content (Or.inr template.1) depth Writer.blankLine
      have later := @ih [] below behind
      simp only [List.map_nil] at later
      simp only [body, later, written run eachFront inFront]

/-- A code block is written by its source, its language, its file and what else is said about it. -/
theorem block_decoratedBlock (attrs : Attrs) (children : List Node) (depth : Nat) :
    (decoratedBlock tokenizer palette attrs (textOf children)).render.rendering.block depth =
      (Node.element "pre" attrs children).render.rendering.block depth := by
  obtain ⟨other, nodes, same, text, _, kept⟩ := @decoratedBlock_spec tokenizer palette attrs (textOf children)
  have said : ∀ key, key ≠ "class" → key ≠ "style" → key ≠ "code" →
    other.getString? key = attrs.getString? key := by
    intro key noClass noStyle noCode
    rw [Attrs.getString?, kept key noClass, keptAttrs, get?_withSource, if_neg noCode,
      get?_stripped attrs noStyle noClass]
    rfl
  have source : (other.getString? "code").getD (sourceOf attrs (textOf children)) =
      (attrs.getString? "code").getD (textOf children) := sourceOf_again (kept "code" (by decide))
  have code : Writer.code other (textOf [innerCode nodes]) = Writer.code attrs (textOf children) := by
    rw [Writer.code, Writer.code, textOf_innerCode, text, source, said _ (by decide) (by decide) (by decide),
      said _ (by decide) (by decide) (by decide), said _ (by decide) (by decide) (by decide)]
  rw [same, render, render]
  exact congrArg some code

/-- An element around code. -/
theorem block_around {tag : String} {attrs : Attrs} {children : List Node} (noCode : tag ≠ "pre")
    (each : ∀ child ∈ children, child.isCodeApart = true → SameWritten tokenizer palette child)
    (apart : (Node.element tag attrs children).isCodeApart = true)
    (loose : (Node.element tag attrs children).isLooseByItems = true) (depth : Nat) :
    (Node.element tag attrs (children.map (decorated tokenizer palette))).render.rendering.block depth =
      (Node.element tag attrs children).render.rendering.block depth := by
  rw [Node.isCodeApart] at apart
  by_cases leaf : tag ∈ Node.leafTags
  · simp only [Node.leafTags, List.mem_cons, List.not_mem_nil, or_false] at leaf
    rcases leaf with rfl | rfl | rfl
    · exact absurd rfl noCode
    · rw [render, render]; rfl
    · rw [render, render]; rfl
  rw [if_neg leaf] at apart
  by_cases line : tag ∈ Node.lineTags
  · rw [if_pos line, List.isEmpty_iff, List.flatMap_eq_nil_iff] at apart
    have items := @inlines_congr (decorated tokenizer palette) children fun child member =>
      inline_decorated (apart child member)
    have text : textOf (children.map (decorated tokenizer palette)) = textOf children :=
      textOf_map_congr fun child member => textContent_decorated fun block inside => by
        rw [apart child member] at inside
        cases inside
    rw [render, render, Node.renderAll_eq_map, Node.renderAll_eq_map, text]
    simp only [Node.lineTags, List.mem_cons, List.not_mem_nil, or_false] at line
    rcases line with rfl | rfl | rfl | rfl | rfl | rfl | rfl | rfl <;>
      simp only [Writer.blockElement, Writer.heading, items]
  rw [if_neg line] at apart
  by_cases list : tag = "ul" ∨ tag = "ol"
  · rw [if_pos list] at apart
    have same : children.any Writer.holdsParagraph =
        children.any fun item => !item.isCode && Writer.holdsParagraph item := by
      rcases list with rfl | rfl <;> simpa [Node.isLooseByItems] using loose
    rw [Node.block_render_list list, Node.block_render_list list, list_decorated each apart same]
  rw [if_neg list] at apart
  by_cases quote : tag = "blockquote"
  · subst quote
    have blocks := blocks_decorated each apart depth Writer.blankLine
    rw [render, render, Node.renderAll_eq_map, Node.renderAll_eq_map]
    simp only [Writer.blockElement, Writer.blockquote, blocks]
  · have other : tag ∉ Writer.blockTags := by
      simp only [Node.leafTags, Node.lineTags, List.mem_cons, List.not_mem_nil, or_false, not_or] at leaf line list
      simp [Writer.blockTags, leaf, line, list, quote]
    have segments := @segments_decorated _ _ [] children each apart (depth + 1)
    rw [List.map_nil, List.map_nil] at segments
    rw [Node.block_render_of_not_mem other, Node.block_render_of_not_mem other, Writer.component, Writer.component,
      segments]

/-- A node in which code blocks stand on lines of their own is written there as if it were not decorated. -/
theorem sameWritten {node : Node} (apart : node.isCodeApart = true)
    (loose : ∀ inner ∈ node.inOrder, inner.isLooseByItems = true) : SameWritten tokenizer palette node := by
  induction node using decorated_induction tokenizer palette with
  | text content => exact ⟨fun _ _ => by rw [decorated_text], fun _ _ _ => by rw [decorated_text]⟩
  | comment content => exact ⟨fun _ _ => by rw [decorated_comment], fun _ _ _ => by rw [decorated_comment]⟩
  | block attrs children =>
    refine ⟨fun _ depth => ?_, fun item => ?_⟩
    · rw [decorated_block, block_decoratedBlock]
    · simp [Node.tag?] at item
  | span attrs children =>
    refine ⟨fun noInline => absurd rfl noInline, fun item => ?_⟩
    simp [Node.tag?] at item
  | around tag attrs children noBlock noSpan same ih =>
    rw [Node.inOrder_element, List.forall_mem_cons] at loose
    obtain ⟨here, inside⟩ := loose
    -- Looseness is asked of all nodes in the tree, so that the children have it too.
    have each : ∀ child ∈ children, child.isCodeApart = true → SameWritten tokenizer palette child :=
      fun child member own => ih child member own fun inner listed =>
        inside inner (List.mem_flatMap.2 ⟨child, member, listed⟩)
    refine ⟨fun _ depth => ?_, fun item depth separator => ?_⟩
    · rw [same]
      exact block_around noBlock each apart here depth
    · have blocks : Node.areCodeApart none children = true := by
        rcases item with item | item <;> (cases item; exact apart)
      rw [same, render, render, Node.renderAll_eq_map, Node.renderAll_eq_map]
      exact blocks_decorated each blocks depth separator

end Block

section Tree

variable (tokenizer : Tokenizer) (choice : ThemeChoice) {tree : Tree}

/-- A style sheet at the end is not written. -/
theorem blockParts_sheet (nodes : List Node) :
    Writer.blockParts 0 none none ((nodes ++ sheetOf choice).map render) =
    Writer.blockParts 0 none none (nodes.map render) := by
  rcases sheetOf_cases choice with none | ⟨css, single⟩
  · rw [none, List.append_nil]
  · have place : (Node.element "style" [] [.text css]).fixedPlacement? = some .block := rfl
    have sheet : (Node.element "style" [] [.text css]).render.rendering.block 0 = none := by
      rw [render]
      rfl
    rw [single, Writer.blockParts_append (by simp [place]) nodes none (Node.isInlineBetween_of_block place _ _),
      sheet]
    simp [Writer.blockParts]

/-- A decorated tree is written as the tree itself, whatever the themes and the tokens are, if no style sheet
stands at its top, no code block below an element that is written inside a line, and every list is as loose as its
items other than code make it. -/
theorem toMarkdown_decorateTree (shown : ∀ node ∈ tree.nodes, node.tag? ≠ some "style")
    (apart : Node.areCodeApart none tree.nodes = true)
    (loose : ∀ list ∈ tree.nodes.flatMap Node.inOrder, list.isLooseByItems = true) (skip : Bool) :
    (decorateTree tokenizer choice tree).toMarkdown skip = tree.toMarkdown skip := by
  have all : contentOf tree = tree.nodes := List.filter_eq_self.2 (by simpa using shown)
  have each : ∀ node ∈ tree.nodes, node.isCodeApart = true → SameWritten tokenizer choice.palette? node :=
    fun node member own => sameWritten own fun inner inside =>
      loose inner (List.mem_flatMap.2 ⟨node, member, inside⟩)
  have parts := blockParts_decorated each apart 0 none
  rw [Option.map_none] at parts
  have body : (decorateTree tokenizer choice tree).bodyText = tree.bodyText := by
    rw [Tree.bodyText, Tree.bodyText, Node.renderAll_eq_map, Node.renderAll_eq_map, Writer.blocks, Writer.blocks,
      decorateTree_nodes, all, blockParts_sheet, parts]
  rw [Tree.toMarkdown, Tree.toMarkdown, body]
  rfl

/-- Code in a list, in a slot and inside a line, with a class, a style and a style sheet at the end. -/
theorem toMarkdown_decorateTree_page :
    let page : Tree := .ofNodes
      [.element "ul" [] [.element "li" [] [.text "a", .element "pre" [("language", .str "c")] [.text "x\ny"]],
          .element "li" [] [.element "p" [] [.text "b"]]],
        .element "card" [] [.element "template" [("v-slot:end", .str "")]
          [.element "pre" [("class", .str "wide"), ("code", .str "z")] [.text "other"]]],
        .element "p" [] [.element "code" [("language", .str "c"), ("id", .str "k"), ("style", .str "s")]
          [.text "let"]]]
    (decorateTree .plain (.ofVariants "InspiredGitHub" [("dark", "base16-ocean.dark")]) page).toMarkdown false =
      page.toMarkdown false :=
  toMarkdown_decorateTree .plain _ (by decide) (by decide) (by decide) false

/-- A list of an item and of code that holds a paragraph is loose, and no longer so with the code decorated. -/
theorem toMarkdown_decorateTree_list :
    let page : Tree := .ofNodes [.element "ul" []
      [.element "li" [] [.text "a"], .element "pre" [] [.element "p" [] [.text "x"]]]]
    (∀ node ∈ page.nodes, node.tag? ≠ some "style") ∧ Node.areCodeApart none page.nodes = true ∧
      page.toMarkdown false = "- a\n\n- \x60\x60\x60\n  x\n  \x60\x60\x60\n" ∧
      (decorateTree .plain (.ofVariants ThemeChoice.defaultName []) page).toMarkdown false =
        "- a\n- \x60\x60\x60\n  x\n  \x60\x60\x60\n" := by
  refine ⟨by decide, by decide, by decide, by decide⟩

end Tree

end Highlight

end ComponentMarkdown
