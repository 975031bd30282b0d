import ComponentMarkdown.Proofs.Markup.Rendering
import ComponentMarkdown.Proofs.Markup.Tree
import ComponentMarkdown.Proofs.Markup.WrittenBlock

namespace ComponentMarkdown

namespace Node

/-- What is written of a sibling list inside a line of text. -/
def inlineText (nodes : List Node) : List Char := Writer.inlines false (nodes.map render)

/-- Whether a text holds no character that starts or ends a construct. -/
def isPlainText (content : String) : Bool :=
  content ≠ "" && content.toList.all fun c => c ∉ ['[', ']', ':', '\x7b', '\x7d', '\\']

/-- Whether a tag can be written as the name of a component inside a line. -/
def isComponentName (tag : String) : Bool :=
  tag.toList.head?.any Char.isAlpha && tag.toList.all Inline.isNameChar && TagKind.ofTag tag = .component

/-- Whether a node is read apart from the one behind it: texts are joined, and no component starts inside a word. -/
def standsApart : Node → Node → Bool
  | .text _, .text _ => false
  | .text content, .element tag _ _ => tag = "span" || !content.toList.getLast?.any Text.isAlphanumeric
  | _, _ => true

mutual

/-- Plain text, spans and components, with attributes that are read back. -/
def isInlineSyntax : Node → Bool
  | .text content => isPlainText content
  | .element tag attrs children =>
    (tag = "span" || isComponentName tag) && AttributeBlock.isInline attrs && areInlineSyntax children
  | .comment _ => false

def areInlineSyntax : List Node → Bool
  | [] => true
  | node :: rest => isInlineSyntax node && rest.head?.all (standsApart node) && areInlineSyntax rest

end

theorem areInlineSyntax_cons_iff {node : Node} {rest : List Node} : areInlineSyntax (node :: rest) = true ↔
    isInlineSyntax node = true ∧ (∀ next ∈ rest.head?, standsApart node next = true) ∧
    areInlineSyntax rest = true := by
  simp only [areInlineSyntax, Bool.and_eq_true, Option.all_eq_true, Option.mem_def, and_assoc]

theorem isInlineSyntax_element_iff {tag : String} {attrs : Attrs} {children : List Node} :
    isInlineSyntax (.element tag attrs children) = true ↔ (tag = "span" ∨ isComponentName tag = true) ∧
      AttributeBlock.isInline attrs = true ∧ areInlineSyntax children = true := by
  simp only [isInlineSyntax, Bool.and_eq_true, Bool.or_eq_true, decide_eq_true_eq, and_assoc]

theorem isInlineSyntax_of_mem {nodes : List Node} (valid : areInlineSyntax nodes = true) {node : Node}
    (member : node ∈ nodes) : isInlineSyntax node = true := by
  induction nodes with
  | nil => cases member
  | cons first rest ih =>
    obtain ⟨here, _, below⟩ := areInlineSyntax_cons_iff.1 valid
    rcases List.mem_cons.1 member with rfl | later
    · exact here
    · exact ih below later

/-- What is written of a component behind its name. -/
def componentTail (attrs : Attrs) (children : List Node) : List Char :=
  if children = [] then AttributeBlock.block attrs
  else '[' :: (inlineText children ++ ']' :: if attrs = [] then [] else AttributeBlock.block attrs)

section Written

variable {attrs : Attrs} (inline : AttributeBlock.isInline attrs = true) (children : List Node) (behind : Bool)

include inline

theorem inline_span : (element "span" attrs children).render.rendering.inline behind =
    '[' :: (inlineText children ++ ']' :: AttributeBlock.block attrs) := by
  obtain ⟨empty, block⟩ := AttributeBlock.write_eq_block inline
  have written : (element "span" attrs children).render.rendering.inline behind =
      '[' :: (inlineText children ++ ']' ::
        if (AttributeBlock.write attrs []).isEmpty then ['\x7b', '\x7d'] else AttributeBlock.write attrs []) := by
    rw [render, renderAll_eq_map]
    rfl
  rw [written, block]
  simp only [List.isEmpty_iff, empty]

theorem inline_component {tag : String} (meaning : TagKind.ofTag tag = .component) :
    (element tag attrs children).render.rendering.inline behind = ':' ::
    (tag.toList ++ componentTail attrs children) := by
  obtain ⟨empty, block⟩ := AttributeBlock.write_eq_block inline
  have written : (element tag attrs children).render.rendering.inline behind =
      Writer.inlineComponent tag attrs (children.map render) := by
    rw [render, renderAll_eq_map]
    dsimp only
    unfold Writer.inlineElement
    -- A tag with a spelling of its own is no component.
    split <;> first | rfl | exact absurd meaning (by decide)
  rw [written, Writer.inlineComponent, componentTail, block]
  have nothing : AttributeBlock.write [] [] = [] := rfl
  by_cases none : children = []
  · by_cases plain : attrs = [] <;> simp [none, plain, empty, nothing]
  · by_cases plain : attrs = [] <;> simp [none, plain, empty, nothing, inlineText]

end Written

/-- What is written of a list of plain texts, spans and components is written node by node. -/
theorem inlineText_eq_flatMap {nodes : List Node} (valid : areInlineSyntax nodes = true) :
    inlineText nodes = nodes.flatMap fun node => node.render.rendering.inline false := by
  have same : ∀ node ∈ nodes, ∀ behind,
    node.render.rendering.inline behind = node.render.rendering.inline false := by
    intro node member behind
    have here := isInlineSyntax_of_mem valid member
    cases node with
    | text content => simp only [render]
    | comment content => cases here
    | element tag attrs children =>
      obtain ⟨rfl | name, inline, _⟩ := isInlineSyntax_element_iff.1 here
      · rw [inline_span inline, inline_span inline]
      · simp only [isComponentName, Bool.and_eq_true, decide_eq_true_eq] at name
        rw [inline_component inline children behind name.2, inline_component inline children false name.2]
  have written : ∀ behind, Writer.inlines behind (nodes.map render) =
      nodes.flatMap fun node => node.render.rendering.inline false := by
    clear valid
    induction nodes with
    | nil => exact fun _ => rfl
    | cons node rest ih =>
      obtain ⟨here, below⟩ := List.forall_mem_cons.1 same
      intro behind
      rw [List.map_cons, Writer.inlines, ih below, here, List.flatMap_cons]
  exact written false

theorem inlineText_cons {node : Node} {rest : List Node} (valid : areInlineSyntax (node :: rest) = true) :
    inlineText (node :: rest) = node.render.rendering.inline false ++ inlineText rest := by
  rw [inlineText_eq_flatMap valid, List.flatMap_cons, inlineText_eq_flatMap (areInlineSyntax_cons_iff.1 valid).2.2]

end Node

namespace Inline

/-- A text in which every bracket has its counterpart. -/
def Balanced (s : List Char) : Prop :=
  ∀ depth rest, labelEnd? (depth + 1) (s ++ rest) = (labelEnd? (depth + 1) rest).map (· + s.length)

theorem labelEnd?_cons {c : Char} (plain : c ∉ ['\\', '[', ']']) (depth : Nat) (rest : List Char) :
    labelEnd? depth (c :: rest) = (labelEnd? depth rest).map (· + 1) := by
  simp only [List.mem_cons, List.not_mem_nil, or_false, not_or] at plain
  rw [labelEnd?]
  · exact fun same => absurd same plain.1
  · exact fun _ _ same => absurd same plain.1
  · exact plain.2.1
  · exact plain.2.2

theorem Balanced.nil : Balanced [] := fun _ _ => Option.map_id'.symm

theorem Balanced.append {s t : List Char} (first : Balanced s) (second : Balanced t) : Balanced (s ++ t) := by
  intro depth rest
  rw [List.append_assoc, first, second, Option.map_map, List.length_append]
  exact congrArg (Option.map · _) (funext fun n => by rw [Function.comp_apply]; omega)

theorem Balanced.of_plain {s : List Char} (plain : ∀ c ∈ s, c ∉ ['\\', '[', ']']) : Balanced s := by
  induction s with
  | nil => exact .nil
  | cons c rest ih =>
    obtain ⟨here, below⟩ := List.forall_mem_cons.1 plain
    exact .append (s := [c]) (fun depth more => labelEnd?_cons here _ more) (ih below)

theorem Balanced.flatMap {α : Type} {items : List α} {f : α → List Char}
    (each : ∀ item ∈ items, Balanced (f item)) : Balanced (items.flatMap f) := by
  induction items with
  | nil => exact .nil
  | cons item rest ih =>
    obtain ⟨here, below⟩ := List.forall_mem_cons.1 each
    exact here.append (ih below)

theorem Balanced.label {s : List Char} (inner : Balanced s) : Balanced ('[' :: (s ++ [']'])) := by
  intro depth rest
  rw [List.cons_append, List.append_assoc, labelEnd?, inner, List.singleton_append, labelEnd?,
    if_neg (Nat.succ_ne_zero _),
    if_neg (by omega), Option.map_map, Option.map_map, Nat.add_sub_cancel, List.length_cons, List.length_append]
  exact congrArg (Option.map · _) (funext fun n => by simp only [Function.comp_apply, List.length_singleton]; omega)

theorem patchwork_balanced : AttributeBlock.Patchwork Balanced where
  nil := .nil
  append := .append
  ordinary := by
    intro c ordinary
    refine .of_plain (List.forall_mem_singleton.2 fun member => ?_)
    have others : ∀ d ∈ ['\\', '[', ']'], AttributeBlock.isOrdinary d = false := by
      simp only [List.mem_cons, List.not_mem_nil, or_false, forall_eq_or_imp, forall_eq]
      decide
    rw [others c member] at ordinary
    cases ordinary
  quoted := by
    intro s quotable
    simp only [AttributeBlock.isQuotable, Bool.and_eq_true, decide_eq_true_eq] at quotable
    have quote : Balanced ['\x22'] := .of_plain (by simp)
    refine quote.append (.append (.flatMap fun c member => ?_) quote)
    split
    · exact fun _ _ => rfl
    · refine .of_plain (List.forall_mem_singleton.2 ?_)
      have inside : ∀ d, d ∉ s.toList → c ≠ d := fun d outside same => outside (same ▸ member)
      simp [inside _ quotable.1.1, inside _ quotable.1.2, inside _ quotable.2]

theorem Balanced.block {attrs : Attrs} (inline : AttributeBlock.isInline attrs = true) :
    Balanced (AttributeBlock.block attrs) := by
  have brace : Balanced ['\x7b'] ∧ Balanced ['\x7d'] := ⟨.of_plain (by simp), .of_plain (by simp)⟩
  exact brace.1.append (.append (patchwork_balanced.inner inline) brace.2)

/-- The brackets that are written are balanced. -/
theorem balanced_inlineText {nodes : List Node} (valid : Node.areInlineSyntax nodes = true) :
    Balanced (Node.inlineText nodes) := by
  have each : ∀ node : Node, node.isInlineSyntax = true → Balanced (node.render.rendering.inline false) := by
    intro node
    induction node using Node.induction with
    | text content =>
      intro plain
      simp only [Node.isInlineSyntax, Node.isPlainText, Bool.and_eq_true, List.all_eq_true, decide_eq_true_eq]
        at plain
      rw [Node.render]
      refine .of_plain fun c member special => plain.2 c member ?_
      have others : ∀ d ∈ ['\\', '[', ']'], d ∈ ['[', ']', ':', '\x7b', '\x7d', '\\'] := by simp
      exact others c special
    | comment content =>
      intro other
      cases other
    | element tag attrs children ih =>
      intro whole
      obtain ⟨kind, inline, below⟩ := Node.isInlineSyntax_element_iff.1 whole
      have label : Balanced ('[' :: (Node.inlineText children ++ [']'])) := by
        rw [Node.inlineText_eq_flatMap below]
        exact (Balanced.flatMap fun child member => ih child member (Node.isInlineSyntax_of_mem below member)).label
      rcases kind with rfl | name
      · have text : '[' :: (Node.inlineText children ++ ']' :: AttributeBlock.block attrs) =
            ('[' :: (Node.inlineText children ++ [']'])) ++ AttributeBlock.block attrs := by simp
        rw [Node.inline_span inline, text]
        exact label.append (.block inline)
      · simp only [Node.isComponentName, Bool.and_eq_true, decide_eq_true_eq, List.all_eq_true] at name
        have front : Balanced (':' :: tag.toList) := by
          refine .append (s := [':']) (.of_plain (by simp)) (patchwork_balanced.plain fun c member => ?_)
          exact (AttributeBlock.isNameChar_plain (name.1.2 c member)).1
        rw [Node.inline_component inline children false name.2]
        refine front.append ?_
        rw [Node.componentTail]
        split
        · exact .block inline
        · rw [List.append_cons, ← List.cons_append]
          refine label.append ?_
          split
          · exact .nil
          · exact .block inline
  rw [Node.inlineText_eq_flatMap valid]
  exact .flatMap fun node member => each node (Node.isInlineSyntax_of_mem valid member)

end Inline

end ComponentMarkdown
