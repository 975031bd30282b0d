import ComponentMarkdown.Proofs.Markup.InlineReading
import ComponentMarkdown.Proofs.Markup.InlineWriting

namespace ComponentMarkdown

namespace Inline

section Parts

theorem label?_of_balanced {inner : List Char} (balanced : Balanced inner) (tail : List Char) :
    label? (textPieces ('[' :: (inner ++ ']' :: tail))) = some (textPieces inner, inner.length + 2) := by
  refine label?_eq_some_iff.2 ⟨textPieces tail, by simp [textPieces], ?_, by simp⟩
  rw [chars_append, chars_append, chars_textPieces, chars_textPieces, chars_textPieces,
    balanced 0, List.singleton_append, labelEnd?, length_textPieces, Nat.add_comm inner.length]
  rfl

theorem attributes?_block {attrs : Attrs} (inline : AttributeBlock.isInline attrs = true) (tail : List Char) :
    ∃ back, attributes? (textPieces (AttributeBlock.block attrs ++ tail)) =
    some (back, (AttributeBlock.block attrs).length) ∧
      back.Perm attrs := by
  obtain ⟨back, read, perm⟩ := AttributeBlock.read_block inline
  refine ⟨back, attributes?_eq_some_iff.2 ⟨_, textPieces tail, textPieces_append _ _, ?_, read, rfl⟩, perm⟩
  rw [chars_textPieces]
  exact AttributeBlock.split?_block inline tail

end Parts

section Constructs

theorem last_block (front : List Char) (attrs : Attrs) :
    ∀ c ∈ (front ++ AttributeBlock.block attrs).getLast?, Text.isAlphanumeric c = false := by
  rw [AttributeBlock.block, ← List.cons_append, ← List.append_assoc, List.getLast?_concat]
  rintro c ⟨⟩
  decide

/-- At the start of a text stands what was written of an element, and what is behind it is apart. -/
structure Rereads (before : Option Piece) (text tail : List Char) (tag : String) (attrs : Attrs) (inner : List Char)
    (found : Construct) (opening closing : List Char) : Prop where
  here : construct? before (textPieces (text ++ tail)) = some found
  frames : found.Frames (textPieces (text ++ tail)) opening closing (textPieces tail)
  tag : found.tag = tag
  attrs : found.attrs.Perm attrs
  label : found.label = textPieces inner
  last : ∀ c ∈ (opening ++ closing).getLast?, Text.isAlphanumeric c = false

variable {attrs : Attrs} (inline : AttributeBlock.isInline attrs = true) (before : Option Piece) (tail : List Char)

include inline

theorem rereads_span {inner : List Char} (balanced : Balanced inner) : ∃ found opening closing,
    Rereads before ('[' :: (inner ++ ']' :: AttributeBlock.block attrs)) tail "span" attrs inner
      found opening closing := by
  obtain ⟨back, read, perm⟩ := attributes?_block inline tail
  have text : textPieces (('[' :: (inner ++ ']' :: AttributeBlock.block attrs)) ++ tail) = textPieces ['['] ++
      (textPieces inner ++ (textPieces [']'] ++ textPieces (AttributeBlock.block attrs ++ tail))) := by
    simp [textPieces]
  have labelled := label?_of_balanced balanced (AttributeBlock.block attrs ++ tail)
  refine ⟨⟨"span", back, textPieces inner, inner.length + 2 + (AttributeBlock.block attrs).length⟩, ['['],
    ']' :: AttributeBlock.block attrs, ?_, ⟨?_, ?_, ?_, ?_⟩, rfl, perm, rfl, ?_⟩
  · have reads : construct? before (textPieces (('[' :: (inner ++ ']' :: AttributeBlock.block attrs)) ++ tail)) =
        span? (textPieces (('[' :: (inner ++ ']' :: AttributeBlock.block attrs)) ++ tail)) := rfl
    rw [reads]
    refine span?_eq_some_iff.2 ⟨_, _, back, _, ?_, ?_, rfl⟩
    · rw [← labelled]
      simp
    · rw [text, ← length_textPieces inner, drop_label, read]
  · rw [text]
    simp [textPieces]
  · simp
  · simp
  · simp only [List.length_cons, List.length_nil, length_textPieces]
    omega
  · exact last_block ['[', ']'] attrs

section Component

variable {tag : String} (name : Node.isComponentName tag = true)
  (free : before.any (fun piece => Text.isAlphanumeric piece.toChar) = false)

omit inline

include free in
theorem construct?_component (tail : List Char) : construct? before (textPieces (':' :: (tag.toList ++ tail))) =
    component? (textPieces (':' :: tag.toList) ++ textPieces tail) := by
  rw [← textPieces_append]
  exact if_neg (by rw [free]; exact Bool.false_ne_true)

include inline name free

/-- Without children the attributes of a component stand right behind its name. -/
theorem rereads_bare :
    ∃ found opening closing, Rereads before (':' :: (tag.toList ++ AttributeBlock.block attrs)) tail tag attrs []
    found opening closing := by
  simp only [Node.isComponentName, Bool.and_eq_true, List.all_eq_true] at name
  have named : String.ofList tag.toList = tag := String.ofList_toList
  obtain ⟨back, read, perm⟩ := attributes?_block inline tail
  have labelled : label? (textPieces (AttributeBlock.block attrs ++ tail)) = none :=
    label?_of_head (by simp [textPieces, chars, AttributeBlock.block, Piece.toChar])
  refine ⟨⟨tag, back, [], tag.toList.length + 1 + 0 + (AttributeBlock.block attrs).length⟩,
    ':' :: (tag.toList ++ AttributeBlock.block attrs), [], ⟨?_, ⟨?_, by simp, by simp, ?_⟩, rfl, perm, rfl, ?_⟩⟩
  · rw [List.cons_append, List.append_assoc, construct?_component before free]
    refine component?_eq_some_iff.2 ⟨tag.toList, _, rfl, name.1.1, name.1.2, ?_, ?_⟩
    · rw [chars_textPieces]
      rintro c ⟨⟩
      decide
    · simp [labelled, read]
  · simp [textPieces]
  · simp only [List.length_cons, List.length_append, List.length_nil]
    omega
  · rw [List.append_nil]
    exact last_block (':' :: tag.toList) attrs

/-- The attributes behind a label are left out when there are none, and what is behind is not taken for them. -/
theorem rereads_labelled {inner : List Char} (balanced : Balanced inner) (ends : tail.head? ≠ some '\x7b') :
    ∃ found opening closing, Rereads before
      (':' :: (tag.toList ++ ('[' :: (inner ++ ']' :: (if attrs = [] then [] else AttributeBlock.block attrs)))))
      tail tag attrs inner found opening closing := by
  simp only [Node.isComponentName, Bool.and_eq_true, List.all_eq_true] at name
  have named : String.ofList tag.toList = tag := String.ofList_toList
  generalize more_ : (if attrs = [] then [] else AttributeBlock.block attrs) = more
  have block : ∃ back : Attrs, ((attributes? (textPieces (more ++ tail))).map Prod.fst).getD [] = back ∧
    back.Perm attrs ∧
      ((attributes? (textPieces (more ++ tail))).map Prod.snd).getD 0 = more.length ∧
        ∀ c ∈ (']' :: more).getLast?, Text.isAlphanumeric c = false := by
    by_cases plain : attrs = []
    · rw [if_pos plain] at more_
      rw [← more_, List.nil_append, attributes?_of_head (by rwa [chars_textPieces]), plain]
      exact ⟨[], rfl, .nil, rfl, by rintro c ⟨⟩; decide⟩
    · obtain ⟨back, read, perm⟩ := attributes?_block inline tail
      rw [if_neg plain] at more_
      rw [← more_, read]
      exact ⟨back, rfl, perm, rfl, last_block [']'] attrs⟩
  obtain ⟨back, read, perm, size, last⟩ := block
  have label : textPieces ('[' :: (inner ++ ']' :: (more ++ tail))) =
      textPieces ['['] ++
        (textPieces inner ++ (textPieces [']'] ++ textPieces (more ++ tail))) := by simp [textPieces]
  have dropped : (textPieces ('[' :: (inner ++ ']' :: (more ++ tail)))).drop (inner.length + 2) =
    textPieces (more ++ tail) := by
    rw [label, ← length_textPieces inner, drop_label]
  have whole : ':' :: (tag.toList ++ '[' :: (inner ++ ']' :: more)) ++ tail =
      ':' :: (tag.toList ++ '[' :: (inner ++ ']' :: (more ++ tail))) := by simp
  refine ⟨⟨tag, back, textPieces inner, tag.toList.length + 1 + (inner.length + 2) + more.length⟩,
    ':' :: (tag.toList ++ ['[']), ']' :: more, ⟨?_, ⟨?_, by simp, by simp, ?_⟩, rfl, perm, rfl, ?_⟩⟩
  · rw [whole, construct?_component before free]
    refine component?_eq_some_iff.2 ⟨tag.toList, _, rfl, name.1.1, name.1.2, ?_, ?_⟩
    · rw [chars_textPieces]
      rintro c ⟨⟩
      decide
    · simp only [label?_of_balanced balanced, Option.map_some, Option.getD_some, dropped, read, size, named]
      exact ⟨Or.inl rfl, trivial⟩
  · simp [textPieces]
  · simp only [List.length_cons, List.length_append, List.length_nil, length_textPieces]
    omega
  · rw [List.getLast?_append_of_ne_nil _ (by simp)]
    exact last

/-- A component is read behind a character that is part of no word, in front of a character that opens no block. -/
theorem rereads_component {children : List Node} (balanced : Balanced (Node.inlineText children))
    (ends : tail.head? ≠ some '\x7b') : ∃ found opening closing,
    Rereads before (':' :: (tag.toList ++ Node.componentTail attrs children)) tail tag attrs
      (Node.inlineText children) found opening closing := by
  by_cases none : children = []
  · rw [Node.componentTail, if_pos none, none]
    exact rereads_bare inline before tail name free
  · rw [Node.componentTail, if_neg none]
    exact rereads_labelled inline before tail name free balanced ends

end Component

end Constructs

section Siblings

/-- A plain text holds no character that a construct starts with, and it ends in some character. -/
theorem plain_content {content : String} (plain : Node.isPlainText content = true) :
    (∀ c ∈ content.toList, c ∉ ['\x7b', ':', '[']) ∧ nodes (textPieces content.toList) = [.text content] ∧
      ∃ init c, content.toList = init ++ [c] := by
  simp only [Node.isPlainText, Bool.and_eq_true, List.all_eq_true, decide_eq_true_eq] at plain
  have some : content.toList ≠ [] := by simpa using plain.1
  have others : ∀ e ∈ ['\x7b', ':', '['], e ∈ ['[', ']', ':', '\x7b', '\x7d', '\\'] := by simp
  obtain ⟨init, c, same⟩ := (List.eq_nil_or_concat content.toList).resolve_left some
  rw [List.concat_eq_append] at same
  refine ⟨fun d member special => plain.2 d member (others d special), ?_, init, c, same⟩
  rw [nodes_textPieces some, String.ofList_toList]

/-- What is written of plain texts, spans and components opens no block. -/
theorem head?_inlineText {siblings : List Node} (valid : Node.areInlineSyntax siblings = true) :
    (Node.inlineText siblings).head? ≠ some '\x7b' := by
  cases siblings with
  | nil => simp [Node.inlineText, Writer.inlines]
  | cons node rest =>
    obtain ⟨here, _⟩ := Node.areInlineSyntax_cons_iff.1 valid
    rw [Node.inlineText_cons valid]
    cases node with
    | text content =>
      obtain ⟨plain, _, init, c, same⟩ := plain_content here
      rw [Node.render]
      intro opens
      rw [List.head?_append_of_ne_nil _ (by simp [same])] at opens
      exact plain _ (List.mem_of_head? opens) (by decide)
    | comment content => cases here
    | element tag attrs children =>
      obtain ⟨rfl | name, inline, _⟩ := Node.isInlineSyntax_element_iff.1 here
      · rw [Node.inline_span inline]
        simp
      · simp only [Node.isComponentName, Bool.and_eq_true, decide_eq_true_eq] at name
        rw [Node.inline_component inline children false name.2]
        simp

/-- Whether a sibling is read apart from the text and the piece in front of it. -/
def Follows (front : List Char) (before : Option Piece) : Node → Prop
  | .text _ => front = []
  | .element tag _ _ => tag = "span" ∨ before.any (fun piece => Text.isAlphanumeric piece.toChar) = false
  | .comment _ => True

/-- What is written of a span or a component is read as one construct. -/
theorem exists_rereads {tag : String} {attrs : Attrs} {children : List Node}
    (valid : (Node.element tag attrs children).isInlineSyntax = true) {front : List Char} {before : Option Piece}
    (follows : Follows front before (.element tag attrs children)) {tail : List Char}
    (ends : tail.head? ≠ some '\x7b') :
    ∃ found opening closing,
    Rereads before ((Node.element tag attrs children).render.rendering.inline false) tail tag attrs
      (Node.inlineText children) found opening closing := by
  obtain ⟨kind, inline, inside⟩ := Node.isInlineSyntax_element_iff.1 valid
  have balanced := balanced_inlineText inside
  rcases kind with rfl | name
  · rw [Node.inline_span inline]
    exact rereads_span inline before _ balanced
  · have meaning : TagKind.ofTag tag = .component := by
      simp only [Node.isComponentName, Bool.and_eq_true, decide_eq_true_eq] at name
      exact name.2
    have free := follows.resolve_left (by rintro rfl; exact absurd meaning (by decide))
    rw [Node.inline_component inline children false meaning]
    exact rereads_component inline before _ name free balanced ends

theorem read_siblings {siblings : List Node} (valid : Node.areInlineSyntax siblings = true)
    (nested : ∀ tag attrs children, Node.element tag attrs children ∈ siblings →
      List.Forall₂ Node.Alike (read [] none (textPieces (Node.inlineText children))) children)
    (front : List Char) {before : Option Piece} (text : before.any Piece.isElement = false)
    (first : ∀ next ∈ siblings.head?, Follows front before next) :
    List.Forall₂ Node.Alike (read (textPieces front) before (textPieces (Node.inlineText siblings)))
      (nodes (textPieces front) ++ siblings) := by
  -- A text is passed over and becomes the open one, a construct closes the text in front of it.
  induction siblings generalizing front before with
  | nil =>
    have nothing : textPieces (Node.inlineText []) = [] := rfl
    rw [nothing, read_nil, List.append_nil]
    exact List.forall₂_same.2 fun node _ => .refl node
  | cons node rest ih =>
    obtain ⟨here, apart, below⟩ := Node.areInlineSyntax_cons_iff.1 valid
    have later := fun tag attrs children member => nested tag attrs children (List.mem_cons_of_mem _ member)
    have follows := first node rfl
    rw [Node.inlineText_cons valid]
    cases node with
    | text content =>
      obtain ⟨plain, text_, init, c, same⟩ := plain_content here
      have last : (content.toList.getLast?.map Piece.char).or before = some (.char c) := by
        rw [same, List.getLast?_concat]
        rfl
      obtain rfl : front = [] := follows
      have rest_ : ∀ next ∈ rest.head?, Follows content.toList (some (.char c)) next := by
        intro next member
        have between := apart next member
        cases next with
        | text other => cases between
        | comment other => trivial
        | element tag attrs children =>
          simpa [Node.standsApart, same, Follows, Piece.toChar] using between
      have read := ih below later _ rfl rest_
      rw [text_] at read
      rw [Node.render, read_plain_text text plain, last]
      exact read
    | comment content => cases here
    | element tag attrs children =>
      obtain ⟨found, opening, closing, reread⟩ := exists_rereads here follows (head?_inlineText below)
      obtain ⟨c, last, read⟩ := read_frames (textPieces front) (trailing?_of_text text _) reread.here reread.frames
      have apart_ : ∀ next ∈ rest.head?, Follows [] (some (.char c)) next := by
        intro next _
        cases next with
        | text other => rfl
        | comment other => trivial
        | element tag attrs children => exact Or.inr (reread.last c last)
      rw [read, reread.tag, reread.label]
      refine List.rel_append (List.forall₂_same.2 fun node _ => .refl node) (.cons ?_ (ih below later _ rfl apart_))
      exact .element reread.attrs (nested tag attrs children List.mem_cons_self)

/-- With labels that are read back, what is written of siblings is read back. -/
theorem read_inlineText {siblings : List Node} (valid : Node.areInlineSyntax siblings = true)
    (nested : ∀ tag attrs children, Node.element tag attrs children ∈ siblings →
      List.Forall₂ Node.Alike (read [] none (textPieces (Node.inlineText children))) children) :
    List.Forall₂ Node.Alike (read [] none (textPieces (Node.inlineText siblings))) siblings := by
  refine read_siblings valid nested [] rfl fun next _ => ?_
  cases next with
  | text | comment => trivial
  | element => exact Or.inr rfl

/-- Plain texts, spans and components are read back from what is written of them. -/
theorem apply_inlineText_alike {siblings : List Node} (valid : Node.areInlineSyntax siblings = true) :
    Node.AllAlike (apply [.text (String.ofList (Node.inlineText siblings))]) siblings := by
  have label : ∀ node : Node, node.isInlineSyntax = true → ∀ tag attrs children,
    node = .element tag attrs children →
      List.Forall₂ Node.Alike (read [] none (textPieces (Node.inlineText children))) children := by
    intro node
    induction node using Node.induction with
    | text | comment => exact fun _ _ _ _ same => nomatch same
    | element tag attrs children ih =>
      rintro whole _ _ _ ⟨⟩
      obtain ⟨_, _, below⟩ := Node.isInlineSyntax_element_iff.1 whole
      exact read_inlineText below fun tag attrs inner member =>
        ih _ member (Node.isInlineSyntax_of_mem below member) tag attrs inner rfl
  rw [Node.allAlike_iff, apply_text]
  exact read_inlineText valid fun tag attrs children member =>
    label _ (Node.isInlineSyntax_of_mem valid member) tag attrs children rfl

/-- Constructs side by side and in labels, with a class in front of other attributes. -/
theorem apply_inlineText_alike_nested :
    let line : List Node := [.text "Try ",
      .element "badge" [("class", .str "big red"), ("note", .str "say \"\x7b7\""), ("count", .num (.int (-3)))]
        [.text "the ", .element "span" [] [.element "icon" [("id", .str "x"), ("on", .bool false)] []]],
      .element "icon" [] [], .element "span" [] [], .text " now"]
    Node.AllAlike (apply [.text (String.ofList (Node.inlineText line))]) line := by
  refine apply_inlineText_alike ?_
  decide +kernel

end Siblings

end Inline

end ComponentMarkdown
