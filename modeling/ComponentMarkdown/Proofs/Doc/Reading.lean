import ComponentMarkdown.Doc.OfMarkup
import ComponentMarkdown.Proofs.Attrs
import ComponentMarkdown.Proofs.Doc.TagKind

namespace ComponentMarkdown

namespace Node

theorem readings_eq_map [Surroundings] (emoji : Bool) (nodes : List Node) :
    readings emoji nodes = nodes.map (reading emoji) := by
  induction nodes with
  | nil => rw [readings, List.map_nil]
  | cons node rest ih => rw [readings, List.map_cons, ih]

@[simp]
theorem reading_element [Surroundings] (emoji : Bool) (tag : String) (attrs : Attrs) (children : List Node) :
    (element tag attrs children).reading emoji = .ofElement tag attrs (children.map (reading emoji)) := by
  rw [reading, readings_eq_map]

mutual

@[simp]
theorem reading_node [Surroundings] (emoji : Bool) : ∀ node : Node, (node.reading emoji).node = node
  | text content => by rw [reading]
  | comment content => by rw [reading]
  | element tag attrs children => by
    rw [reading, readings_eq_map, Reading.ofElement]
    exact congrArg (element tag attrs) (by rw [← readings_eq_map]; exact map_reading_node emoji children)

theorem map_reading_node [Surroundings] (emoji : Bool) :
    ∀ nodes : List Node, (readings emoji nodes).map Reading.node = nodes
  | [] => by rw [readings, List.map_nil]
  | node :: rest => by rw [readings, List.map_cons, reading_node emoji node, map_reading_node emoji rest]

end

/-- The mark that an element is read as, if it is only formatting. -/
def mark? [Surroundings] : Node → Option Mark
  | .element tag attrs children =>
    match MarkKind.ofTag? tag with
    | some .link => if areMarkedText children then some ⟨.link, LinkPolicy.editorAttrs attrs⟩ else none
    | some kind => some ⟨kind, attrs⟩
    | none => none
  | _ => none

theorem mark?_eq_some [Surroundings] {tag : String} {attrs : Attrs} {children : List Node} {mark : Mark}
    (marked : (element tag attrs children).mark? = some mark) :
    tag = mark.kind.tag ∧ (mark.kind = .link → areMarkedText children = true) ∧
      mark.attrs = if mark.kind = .link then LinkPolicy.editorAttrs attrs else attrs := by
  rw [mark?] at marked
  cases found : MarkKind.ofTag? tag with
  | none =>
    rw [found] at marked
    cases marked
  | some kind =>
    have named := MarkKind.ofTag?_eq_some_iff.1 found
    rw [found] at marked
    cases kind with
    | link =>
      by_cases text : areMarkedText children = true
      · simp only [text, if_true, Option.some.injEq] at marked
        subst marked
        exact ⟨named, fun _ => text, rfl⟩
      · simp only [text, Bool.false_eq_true, if_false, reduceCtorEq] at marked
    | _ =>
      simp only [Option.some.injEq] at marked
      subst marked
      exact ⟨named, by simp, by simp⟩

section Inline

variable {emoji : Bool} {tag : String} {attrs : Attrs} {children : List Node}

theorem inline_element [Surroundings] (inside : Reading.isBlockTag tag = false) (emoji : Bool) (marks : List Mark) :
    ((element tag attrs children).reading emoji).inline marks =
      Reading.inlineElement tag attrs (children.map (reading emoji)) marks := by
  rw [reading_element, Reading.ofElement]
  simp only [inside, Bool.false_eq_true, if_false]

theorem map_node_map_reading [Surroundings] (children : List Node) :
    (children.map (reading emoji)).map Reading.node = children := by
  rw [← readings_eq_map, map_reading_node]

/-- Formatting other than code is taken off, and what stands in it is read under its mark. -/
theorem inline_of_marked [Surroundings] {mark : Mark} (marked : (element tag attrs children).mark? = some mark)
    (noCode : mark.kind ≠ .code) (emoji : Bool) (marks : List Mark) :
    ((element tag attrs children).reading emoji).inline marks =
      Reading.inlines (mark :: marks) (children.map (reading emoji)) := by
  obtain ⟨named, text, kept⟩ := mark?_eq_some marked
  have meaning := TagKind.ofTag_eq_mark_iff.2 named
  rw [inline_element (by simp only [Reading.isBlockTag, meaning])]
  obtain ⟨kind, attrs'⟩ := mark
  cases kind with
  | code => exact absurd rfl noCode
  | link =>
    obtain rfl : attrs' = LinkPolicy.editorAttrs attrs := kept
    simp only [Reading.inlineElement, meaning, Reading.marked, map_node_map_reading, text, if_true, Mark.compose]
  | bold | italic | strike =>
    obtain rfl : attrs' = attrs := kept
    simp only [Reading.inlineElement, meaning, Reading.marked, Mark.compose]

/-- Code is read as its text, with no attribute but its language. -/
theorem inline_of_code [Surroundings] {mark : Mark} (marked : (element tag attrs children).mark? = some mark)
    (code : mark.kind = .code) (emoji : Bool) (marks : List Mark) :
    ((element tag attrs children).reading emoji).inline marks =
      pure (if textOf children = "" then []
        else [.text (textOf children) (⟨.code, attrs.field "language"⟩ :: marks)]) := by
  obtain ⟨named, _, _⟩ := mark?_eq_some marked
  rw [code] at named
  have meaning := TagKind.ofTag_eq_mark_iff.2 named
  rw [inline_element (by simp only [Reading.isBlockTag, meaning])]
  simp only [Reading.inlineElement, meaning, Reading.marked, map_node_map_reading, Reading.codeText, Mark.compose,
    Attrs.field]
  cases attrs.get? "language" with
  | none => rfl
  | some language => rfl

end Inline

end Node

end ComponentMarkdown
