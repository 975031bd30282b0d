import ComponentMarkdown.Proofs.Doc.Nesting
import ComponentMarkdown.Proofs.Merging

namespace ComponentMarkdown

namespace Node

/-- Two texts glued. -/
def glued? : Node → Node → Option Node
  | .text content, .text next => some (.text (content ++ next))
  | _, _ => none

theorem glueTexts_eq (nodes : List Node) : glueTexts nodes = mergeNeighbours glued? nodes := by
  induction nodes with
  | nil => rfl
  | cons node rest ih =>
    rw [mergeNeighbours_cons, ← ih]
    cases node with
    | text content =>
      rw [glueTexts]
      split
      · rename_i next tail glued
        rw [glued]
        rfl
      · rename_i apart
        cases first : glueTexts rest with
        | nil => rfl
        | cons node tail =>
          cases node with
          | text next => exact absurd first (apart next tail)
          | element | comment => rfl
    | element | comment =>
      rw [glueTexts]
      · cases glueTexts rest <;> rfl
      · intro content same
        cases same

theorem glued?_eq_some {x y z : Node} (glued : glued? x y = some z) :
    ∃ content next, x = text content ∧ y = text next ∧ z = text (content ++ next) := by
  cases x <;> cases y <;> simp only [glued?, reduceCtorEq, Option.some.injEq] at glued
  exact ⟨_, _, rfl, rfl, glued.symm⟩

/-- What is kept where two texts are put together is kept where texts are glued. -/
theorem flatMap_glueTexts {α : Type} {parts : Node → List α}
    (whole : ∀ content next, parts (text (content ++ next)) = parts (text content) ++ parts (text next))
    (nodes : List Node) : (glueTexts nodes).flatMap parts = nodes.flatMap parts := by
  rw [glueTexts_eq]
  refine flatMap_mergeNeighbours ?_ nodes
  intro x y z glued
  obtain ⟨content, next, rfl, rfl, rfl⟩ := glued?_eq_some glued
  exact whole content next

@[simp]
theorem textOf_nil : textOf [] = "" := by rw [textOf]

@[simp]
theorem textOf_cons (node : Node) (rest : List Node) :
    textOf (node :: rest) = node.textContent ++ textOf rest := by rw [textOf]

@[simp]
theorem textContent_text (content : String) : (text content).textContent = content := by
  rw [textContent]

@[simp]
theorem textContent_comment (content : String) : (comment content).textContent = "" := by
  rw [textContent]

theorem textContent_element {tag : String} (shown : tag ≠ "style") (attrs : Attrs)
    (children : List Node) : (element tag attrs children).textContent = textOf children := by
  rw [textContent, if_neg shown]

theorem textOf_append (nodes more : List Node) :
    textOf (nodes ++ more) = textOf nodes ++ textOf more := by
  induction nodes with
  | nil => simp only [List.nil_append, textOf_nil, String.empty_append]
  | cons node rest ih => simp only [List.cons_append, textOf_cons, ih, String.append_assoc]

theorem toList_textOf (nodes : List Node) :
    (textOf nodes).toList = nodes.flatMap fun node => node.textContent.toList := by
  induction nodes with
  | nil => rw [textOf_nil, List.flatMap_nil, String.toList_empty]
  | cons node rest ih => rw [textOf_cons, String.toList_append, ih, List.flatMap_cons]

theorem joinOver?_eq_some {left space right joined : Node}
    (fused : joinOver? left space right = some joined) :
    ∃ tag attrs children attrs' children', tag ∈ joinableTags ∧ attrs.same attrs' = true ∧
      left = element tag attrs children ∧ space = text " " ∧ right = element tag attrs' children' ∧
      joined = element tag attrs (glueTexts (children ++ text " " :: children')) := by
  unfold joinOver? at fused
  split at fused
  · split at fused
    · rename_i tag attrs children tag' attrs' children' formatting
      obtain ⟨rfl, same, joinable⟩ := formatting
      exact ⟨tag, attrs, children, attrs', children', joinable, same, rfl, rfl, rfl,
        (Option.some.inj fused).symm⟩
    · exact absurd fused (by simp)
  · exact absurd fused (by simp)

theorem exists_kind_of_joinable {tag : String} (joinable : tag ∈ joinableTags) : ∃ kind :
    MarkKind, tag = kind.tag := by
  simp only [joinableTags, List.mem_cons, List.not_mem_nil, or_false] at joinable
  rcases joinable with rfl | rfl | rfl | rfl
  · exact ⟨.bold, rfl⟩
  · exact ⟨.italic, rfl⟩
  · exact ⟨.strike, rfl⟩
  · exact ⟨.link, rfl⟩

/-- Parts of nodes that are kept where texts are joined, and in which formatting has no share of its own. -/
structure SeesThroughFormatting {α : Type} (parts : Node → List α) : Prop where
  text (content next : String) : parts (text (content ++ next)) = parts (text content) ++ parts (text next)
  formatting (kind : MarkKind) (attrs : Attrs) (children : List Node) :
    parts (element kind.tag attrs children) = children.flatMap parts

namespace SeesThroughFormatting

variable {α : Type} {parts : Node → List α} (law : SeesThroughFormatting parts)

include law

theorem flatMap_consJoining (node : Node) (nodes : List Node) :
    (consJoining node nodes).flatMap parts = parts node ++ nodes.flatMap parts := by
  unfold consJoining
  split
  · rename_i space right rest
    split
    · rename_i joined fused
      obtain ⟨tag, attrs, children, attrs', children', joinable, -, rfl, rfl, rfl, rfl⟩ := joinOver?_eq_some fused
      obtain ⟨kind, rfl⟩ := exists_kind_of_joinable joinable
      simp only [List.flatMap_cons, law.formatting, flatMap_glueTexts law.text,
        List.flatMap_append, List.append_assoc]
    · rw [List.flatMap_cons]
  · rw [List.flatMap_cons]

theorem flatMap_joinSplitMarks (nodes : List Node) :
    (joinSplitMarks nodes).flatMap parts = nodes.flatMap parts := by
  unfold joinSplitMarks
  induction nodes with
  | nil => rfl
  | cons node rest ih => rw [List.foldr_cons, law.flatMap_consJoining, ih, List.flatMap_cons]

end SeesThroughFormatting

theorem seesThroughFormatting_textContent : SeesThroughFormatting fun node => node.textContent.toList where
  text content next := by rw [textContent_text, textContent_text, textContent_text, String.toList_append]
  formatting kind attrs children := by
    have shown : kind.tag ≠ "style" := by cases kind <;> decide
    rw [textContent_element shown, toList_textOf]

end Node

namespace MarkedNode

/-- Two texts with equal marks in one. -/
def coalesced? : MarkedNode → MarkedNode → Option MarkedNode
  | ⟨marks, .text content⟩, ⟨marks', .text next⟩ =>
    if Mark.sameList marks marks' then some ⟨marks, .text (content ++ next)⟩ else none
  | _, _ => none

theorem coalesce_eq (items : List MarkedNode) : coalesce items = mergeNeighbours coalesced? items := by
  induction items with
  | nil => rfl
  | cons item rest ih =>
    rw [mergeNeighbours_cons, ← ih]
    obtain ⟨marks, node⟩ := item
    cases node with
    | text content =>
      rw [coalesce]
      split
      · rename_i marks' next tail first
        rw [first]
        by_cases same : Mark.sameList marks marks' = true
        · simp only [same, if_true, consMerging, coalesced?]
        · simp only [same, Bool.false_eq_true, if_false, consMerging, coalesced?]
      · rename_i apart
        cases first : coalesce rest with
        | nil => rfl
        | cons item tail =>
          obtain ⟨marks', node⟩ := item
          cases node with
          | text next => exact absurd first (apart marks' next tail)
          | element | comment => rfl
    | element | comment =>
      rw [coalesce]
      · cases coalesce rest <;> rfl
      · intro marks content same
        cases same

/-- The text of a line whose marks are not yet elements. -/
def textOf (items : List MarkedNode) : String := Node.textOf (items.map node)

theorem textOf_append (items more : List MarkedNode) : textOf (items ++ more) = textOf items ++ textOf more := by
  rw [textOf, List.map_append, Node.textOf_append, textOf, textOf]

theorem toList_textOf (items : List MarkedNode) :
    (textOf items).toList = items.flatMap fun item => item.node.textContent.toList := by
  rw [textOf, Node.toList_textOf, List.flatMap_map]

section Parts

variable {α : Type} {parts : Node → List α} (law : Node.SeesThroughFormatting parts)

include law

theorem flatMap_coalesce (items : List MarkedNode) :
    ((coalesce items).map node).flatMap parts = (items.map node).flatMap parts := by
  rw [List.flatMap_map, List.flatMap_map, coalesce_eq]
  refine flatMap_mergeNeighbours ?_ items
  rintro ⟨marks, x⟩ ⟨marks', y⟩ z merged
  cases x <;> cases y <;> simp only [coalesced?, reduceCtorEq] at merged
  split at merged
  · rw [← Option.some.inj merged, law.text]
  · exact absurd merged (by simp)

theorem flatMap_nest [Surroundings] (items : List MarkedNode) :
    (nest items).flatMap parts = (items.map node).flatMap parts := by
  induction items using nest_induction with
  | step items ih =>
    have runs : ∀ run ∈ Run.byOuterMark marks items,
        (wrapped nest run).flatMap parts = (run.items.map node).flatMap parts := by
      intro run cut
      cases keyed : run.key with
      | none => simp only [wrapped, keyed]
      | some mark =>
        have inside := ih run cut mark keyed
        rw [List.map_map] at inside
        simp only [wrapped, keyed, List.flatMap_cons, List.flatMap_nil, List.append_nil, markElement,
          law.formatting, inside]
        rfl
    have whole : Run.flatten (Run.byOuterMark marks items) = items := Run.flatten_ofList _ _ items
    rw [nest_eq, List.flatMap_assoc, List.flatMap_congr runs, ← List.flatMap_assoc, ← List.map_flatMap]
    exact congrArg (fun items => (items.map node).flatMap parts) whole

/-- Folding the marks of a line into elements keeps what sees through formatting. -/
theorem flatMap_line [Surroundings] (items : List MarkedNode) :
    (Node.joinSplitMarks (nest (coalesce items))).flatMap parts = (items.map node).flatMap parts := by
  rw [law.flatMap_joinSplitMarks, flatMap_nest law, flatMap_coalesce law]

end Parts

theorem textOf_nest [Surroundings] (items : List MarkedNode) : Node.textOf (nest items) = textOf items := by
  rw [← String.toList_inj, Node.toList_textOf, flatMap_nest Node.seesThroughFormatting_textContent, toList_textOf,
    List.flatMap_map]

theorem textOf_line [Surroundings] (items : List MarkedNode) :
    Node.textOf (Node.joinSplitMarks (nest (coalesce items))) = textOf items := by
  rw [← String.toList_inj, Node.toList_textOf, flatMap_line Node.seesThroughFormatting_textContent, toList_textOf,
    List.flatMap_map]

end MarkedNode

end ComponentMarkdown
