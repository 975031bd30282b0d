import ComponentMarkdown.Proofs.Markup.Placement

namespace ComponentMarkdown.Node

/-- Whether the place of a node depends on its neighbours, as that of a component does. -/
def isComponent (node : Node) : Bool := node.fixedPlacement?.isNone

/-- One of two indices follows the other. -/
def AreBeside (i j : Nat) : Prop := i + 1 = j ∨ j + 1 = i

/-- A node is inline wherever it stands. -/
def IsFixedInline (node : Node) : Prop := node.fixedPlacement? = some .inline

variable {nodes : List Node} {index : Nat} {node : Node}

theorem isComponent_iff : node.isComponent = true ↔ node.fixedPlacement? = none := Option.isNone_iff_eq_none

/-- Nothing beside a node that is no component changes its place. -/
theorem isInlineAt_of_fixed (here : nodes[index]? = some node) (fixed : node.isComponent = false) :
    isInlineAt nodes index = true ↔ node.IsFixedInline := by
  rw [isInlineAt, here, IsFixedInline]
  simp only [isInlineBetween_eq]
  cases place : node.fixedPlacement? with
  | none => rw [isComponent_iff.2 place] at fixed; cases fixed
  | some place => simp

theorem isInlineAt_of_component (here : nodes[index]? = some node) (component : node.isComponent = true) :
    isInlineAt nodes index = true ↔
      ∃ other next, AreBeside index other ∧ nodes[other]? = some next ∧ next.IsFixedInline := by
  have place := isComponent_iff.1 component
  rw [isInlineAt, here]
  simp only [isInlineBetween_eq, place, Bool.or_eq_true, decide_eq_true_eq, neighbourPlace, Option.bind_eq_some_iff]
  constructor
  · rintro (⟨next, before, fixed⟩ | ⟨next, after, fixed⟩)
    · split at before
      · cases before
      · exact ⟨index - 1, next, Or.inr (by omega), before, fixed⟩
    · exact ⟨index + 1, next, Or.inl rfl, after, fixed⟩
  · rintro ⟨other, next, rfl | rfl, there, fixed⟩
    · exact Or.inr ⟨next, there, fixed⟩
    · exact Or.inl ⟨next, by simpa using there, fixed⟩

theorem isComponent_eq_false_of_fixed (fixed : node.IsFixedInline) : node.isComponent = false := by
  rw [isComponent, fixed]
  rfl

/-- A component is inline exactly if a neighbour is that is no component. -/
theorem isInlineAt_component_iff (here : nodes[index]? = some node) (component : node.isComponent = true) :
    isInlineAt nodes index = true ↔ ∃ other next, AreBeside index other ∧ nodes[other]? = some next ∧
      next.isComponent = false ∧ isInlineAt nodes other = true := by
  rw [isInlineAt_of_component here component]
  refine exists_congr fun other => exists_congr fun next => and_congr_right fun _ => and_congr_right fun there => ?_
  refine ⟨fun fixed => ?_, fun ⟨apart, inline⟩ => (isInlineAt_of_fixed there apart).1 inline⟩
  have apart := isComponent_eq_false_of_fixed fixed
  exact ⟨apart, (isInlineAt_of_fixed there apart).2 fixed⟩

section Row

variable {front row back : List Node} (components : ∀ node ∈ row, node.isComponent = true) {k : Nat}
  (inside : k < row.length)

theorem getElem?_row (inside : k < row.length) : (front ++ (row ++ back))[front.length + k]? = some row[k] := by
  rw [List.getElem?_append_right (Nat.le_add_right _ _), Nat.add_sub_cancel_left, List.getElem?_append_left inside,
    List.getElem?_eq_getElem inside]

theorem getElem?_before {other : Nat} (last : other + 1 = front.length) (rest : List Node) :
    (front ++ rest)[other]? = front.getLast? := by
  rw [List.getElem?_append_left (by omega), List.getLast?_eq_getElem?]
  congr 1
  omega

theorem getElem?_behind : (front ++ (row ++ back))[front.length + row.length]? = back.head? := by
  rw [← List.append_assoc, List.getElem?_append_right (by simp), List.length_append, Nat.sub_self,
    List.head?_eq_getElem?]

include components inside

/-- In a row of components only the ends are inline, and only where something that always is stands beside them. -/
theorem isInlineAt_row_iff : isInlineAt (front ++ (row ++ back)) (front.length + k) = true ↔
    (k = 0 ∧ ∃ before ∈ front.getLast?, before.IsFixedInline) ∨
      (k + 1 = row.length ∧ ∃ behind ∈ back.head?, behind.IsFixedInline) := by
  have apart : ∀ j < row.length, ∀ next, (front ++ (row ++ back))[front.length + j]? = some next →
      ¬ next.IsFixedInline := by
    intro j within next there fixed
    rw [getElem?_row within] at there
    have component := components _ (List.getElem_mem within)
    rw [Option.some.inj there, isComponent_eq_false_of_fixed fixed] at component
    cases component
  rw [isInlineAt_of_component (getElem?_row inside) (components _ (List.getElem_mem inside))]
  constructor
  · rintro ⟨other, next, rfl | before, there, fixed⟩
    · by_cases last : k + 1 = row.length
      · rw [Nat.add_assoc, last, getElem?_behind] at there
        exact Or.inr ⟨last, next, there, fixed⟩
      · exact absurd fixed (apart (k + 1) (by omega) next there)
    · cases k with
      | zero =>
        rw [getElem?_before before] at there
        exact Or.inl ⟨rfl, next, there, fixed⟩
      | succ j =>
        obtain rfl : other = front.length + j := by omega
        exact absurd fixed (apart j (by omega) next there)
  · rintro (⟨rfl, before, last, fixed⟩ | ⟨last, behind, first, fixed⟩)
    · have nonempty : 0 < front.length := List.length_pos_of_mem (List.mem_of_getLast? last)
      refine ⟨front.length - 1, before, Or.inr (by omega), ?_, fixed⟩
      rw [getElem?_before (by omega), last]
    · refine ⟨front.length + k + 1, behind, Or.inl rfl, ?_, fixed⟩
      rw [Nat.add_assoc, last, getElem?_behind, first]

end Row

/-- Where components are inline: beside something that is inline and no component, and nowhere else, so in a row of
components only at its ends. -/
theorem isInlineAt_components (nodes : List Node) :
    (∀ index node, nodes[index]? = some node → node.isComponent = true →
      (isInlineAt nodes index = true ↔ ∃ other next, AreBeside index other ∧ nodes[other]? = some next ∧
        next.isComponent = false ∧ isInlineAt nodes other = true)) ∧
    ∀ front row back, nodes = front ++ (row ++ back) → (∀ node ∈ row, node.isComponent = true) →
      ∀ k < row.length, (isInlineAt nodes (front.length + k) = true ↔
        (k = 0 ∧ ∃ before ∈ front.getLast?, before.IsFixedInline) ∨
          (k + 1 = row.length ∧ ∃ behind ∈ back.head?, behind.IsFixedInline)) := by
  refine ⟨fun index node here component => isInlineAt_component_iff here component, ?_⟩
  rintro front row back rfl components k inside
  exact isInlineAt_row_iff components inside

/-- Three components in a row behind a text: the first is in its line, the second is not, whatever stands behind. -/
theorem isInlineAt_components_badges :
    let badge : Node := .element "badge" [] []
    let nodes : List Node := [.text "Hello ", badge, badge, badge, .element "hr" [] []]
    (nodes[1]? = some badge ∧ badge.isComponent = true ∧ isInlineAt nodes 1 = true) ∧
      (nodes = [.text "Hello "] ++ ([badge, badge, badge] ++ [.element "hr" [] []]) ∧
        (∀ node ∈ [badge, badge, badge], node.isComponent = true) ∧ ¬ isInlineAt nodes 2 = true) := by
  intro badge nodes
  have component : badge.isComponent = true := by decide
  have row : ∀ node ∈ [badge, badge, badge], node.isComponent = true := by simp [component]
  refine ⟨⟨rfl, component, ?_⟩, rfl, row, ?_⟩
  · exact ((isInlineAt_components nodes).1 1 badge rfl component).2 ⟨0, .text "Hello ", Or.inr rfl, rfl, rfl, rfl⟩
  · intro inline
    have ends := ((isInlineAt_components nodes).2 [.text "Hello "] _ _ rfl row 1 (by decide)).1 inline
    simp at ends

/-- A component beside one that is in the line of a text is a block all the same. -/
theorem component_beside_inline_is_block : ¬ ∀ (nodes : List Node) (index other : Nat) (node : Node),
    nodes[index]? = some node → node.isComponent = true → AreBeside index other →
      isInlineAt nodes other = true → isInlineAt nodes index = true := by
  intro closed
  have inline := closed
    [.text "Hello ", .element "badge" [] [.text "new"], .element "alert" [] [], .element "hr" [] []] 2 1
    (.element "alert" [] []) rfl (by decide) (Or.inr rfl) (by decide)
  exact absurd inline (by decide)

end ComponentMarkdown.Node
