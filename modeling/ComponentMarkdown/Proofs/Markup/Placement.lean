import ComponentMarkdown.Proofs.Markup.Canonical
import ComponentMarkdown.Proofs.Markup.Tree
import Mathlib.Data.List.TakeWhile

namespace ComponentMarkdown.Node

/-- The fixed place of a neighbour that may be missing. -/
def neighbourPlace (node : Option Node) : Option Placement := node.bind fixedPlacement?

theorem isInlineBetween_eq (before : Option Node) (node : Node) (after : Option Node) :
    isInlineBetween before node after =
      match node.fixedPlacement? with
      | some place => place = .inline
      | none => decide (neighbourPlace before = some .inline) || decide (neighbourPlace after = some .inline) := rfl

theorem isInlineBetween_congr {before before' : Option Node} {node node' : Node}
    (sameBefore : neighbourPlace before = neighbourPlace before')
    (same : node.fixedPlacement? = node'.fixedPlacement?) (after : Option Node) :
    isInlineBetween before node after = isInlineBetween before' node' after := by
  rw [isInlineBetween_eq, isInlineBetween_eq, sameBefore, same]

/-- What is inline without a neighbour behind it is inline with any. -/
theorem isInlineBetween_none_of_false {before : Option Node} {node : Node} {after : Option Node}
    (block : isInlineBetween before node after = false) : isInlineBetween before node none = false := by
  rw [isInlineBetween_eq] at block ⊢
  cases place : node.fixedPlacement? with
  | some place' =>
    rw [place] at block
    exact block
  | none =>
    rw [place, Bool.or_eq_false_iff] at block
    simp only [block.1, Bool.false_or]
    rfl

theorem isInlineBetween_of_block {node : Node} (place : node.fixedPlacement? = some .block)
    (before after : Option Node) : isInlineBetween before node after = false := by
  rw [isInlineBetween_eq, place]
  rfl

theorem endsInline_concat (nodes : List Node) (node : Node) :
    Writing.endsInline (nodes ++ [node]) = isInlineBetween nodes.getLast? node none := by
  have last : (nodes ++ [node])[(nodes ++ [node]).length - 1]? = some node := by simp
  rw [Writing.endsInline, isInlineAt, last]
  have beyond : (nodes ++ [node])[(nodes ++ [node]).length - 1 + 1]? = none := by simp
  simp only [beyond]
  rcases List.eq_nil_or_concat nodes with rfl | ⟨front, item, rfl⟩
  · rfl
  · simp

theorem fixedPlacement?_alike {node other : Node} (alike : node.Alike other) :
    node.fixedPlacement? = other.fixedPlacement? := by
  cases node with
  | text content => rw [alike_text_iff.1 alike]
  | comment content => rw [alike_comment_iff.1 alike]
  | element tag attrs children =>
    obtain ⟨attrs', children', rfl, _, _⟩ := alike_element_iff.1 alike
    rfl

theorem neighbourPlace_getLast?_append {done content run : List Node} (alike : List.Forall₂ Alike content run) :
    neighbourPlace (done ++ content).getLast? = neighbourPlace (done ++ run).getLast? := by
  have front : content.getLast? = content.reverse.head? := List.getLast?_eq_head?_reverse
  have back : run.getLast? = run.reverse.head? := List.getLast?_eq_head?_reverse
  rw [← List.forall₂_reverse_iff] at alike
  rw [List.getLast?_append, List.getLast?_append, front, back]
  generalize content.reverse = front at alike ⊢
  generalize run.reverse = back at alike ⊢
  cases alike with
  | nil => rfl
  | cons first _ => exact fixedPlacement?_alike first

theorem template_of_fillsSlot {node : Node} (fills : fillsSlot node = true) :
    node.tag? = some "template" ∧ node.fixedPlacement? = some .block := by
  cases node with
  | text | comment => cases fills
  | element tag attrs children =>
    rw [fillsSlot, slotName?] at fills
    split at fills
    · rename_i same
      subst same
      exact ⟨rfl, (by decide : Placement.ofTag? "template" = some .block)⟩
    · cases fills

/-- Slots in front of other blocks do not decide what these are. -/
theorem areCanonicalBlocks_slots_append [Surroundings] {front rest : List Node}
    (slots : ∀ node ∈ front, fillsSlot node = true)
    {before : Option Node} (apart : neighbourPlace before ≠ some .inline)
    (canonical : areCanonicalBlocks [] before (front ++ rest) = true) :
    (∀ node ∈ front, isCanonicalBlock node = true) ∧ areCanonicalBlocks [] none rest = true := by
  induction front generalizing before with
  | nil =>
    refine ⟨by simp, ?_⟩
    cases rest with
    | nil => exact canonical
    | cons node more =>
      have same : isInlineBetween before node more.head? = isInlineBetween none node more.head? := by
        rw [isInlineBetween_eq, isInlineBetween_eq]
        simp only [apart, decide_false]
        rfl
      rw [List.nil_append, areCanonicalBlocks, same] at canonical
      rwa [areCanonicalBlocks]
  | cons node more ih =>
    obtain ⟨here, others⟩ := List.forall_mem_cons.1 slots
    have place := (template_of_fillsSlot here).2
    rw [List.cons_append, areCanonicalBlocks, isInlineBetween_of_block place] at canonical
    simp only [Bool.false_eq_true, if_false, Bool.and_eq_true] at canonical
    obtain ⟨⟨⟨_, block⟩, _⟩, below⟩ := canonical
    have behind : neighbourPlace (some node) ≠ some .inline := by
      rw [neighbourPlace, Option.bind_some, place]
      simp
    obtain ⟨blocks, later⟩ := ih others behind below
    exact ⟨List.forall_mem_cons.2 ⟨block, blocks⟩, later⟩

/-- Slots behind other blocks do not decide what these are. -/
theorem areCanonicalBlocks_append_slots [Surroundings] {front slots : List Node}
    (fills : ∀ node ∈ slots, fillsSlot node = true)
    {run : List Node} {before : Option Node} (canonical : areCanonicalBlocks run before (front ++ slots) = true) :
    areCanonicalBlocks run before front = true ∧ ∀ node ∈ slots, isCanonicalBlock node = true := by
  induction front generalizing run before with
  | nil =>
    cases slots with
    | nil => exact ⟨canonical, by simp⟩
    | cons slot more =>
      obtain ⟨here, others⟩ := List.forall_mem_cons.1 fills
      have place := (template_of_fillsSlot here).2
      have behind : neighbourPlace (some slot) ≠ some .inline := by
        rw [neighbourPlace, Option.bind_some, place]
        simp
      rw [List.nil_append, areCanonicalBlocks, isInlineBetween_of_block place] at canonical
      simp only [Bool.false_eq_true, if_false, Bool.and_eq_true] at canonical
      obtain ⟨⟨⟨bare, block⟩, _⟩, below⟩ := canonical
      rw [← List.append_nil more] at below
      obtain ⟨blocks, _⟩ := areCanonicalBlocks_slots_append others behind below
      exact ⟨by rwa [areCanonicalBlocks], List.forall_mem_cons.2 ⟨block, blocks⟩⟩
  | cons node more ih =>
    have next : isInlineBetween before node (more ++ slots).head? = isInlineBetween before node more.head? := by
      cases more with
      | cons => rfl
      | nil =>
        cases slots with
        | nil => rfl
        | cons slot rest =>
          have place := (template_of_fillsSlot (fills slot List.mem_cons_self)).2
          rw [isInlineBetween_eq, isInlineBetween_eq, List.nil_append, List.head?_cons, neighbourPlace,
            neighbourPlace, neighbourPlace, Option.bind_some, place]
          rfl
    rw [List.cons_append, areCanonicalBlocks, next] at canonical
    rw [areCanonicalBlocks]
    split at canonical
    · rename_i inline
      rw [if_pos inline]
      exact ih canonical
    · rename_i block
      rw [if_neg block]
      simp only [Bool.and_eq_true] at canonical ⊢
      obtain ⟨first, below⟩ := canonical
      obtain ⟨later, blocks⟩ := ih below
      exact ⟨⟨first, later⟩, blocks⟩

/-- The children of a component in which those outside of slots stand together: slots, other blocks, slots. -/
theorem exists_of_isBareTogether {nodes : List Node} (together : isBareTogether nodes = true) :
    ∃ front bare back, nodes = front ++ (bare ++ back) ∧ (∀ node ∈ front, fillsSlot node = true) ∧
      (∀ node ∈ bare, fillsSlot node = false) ∧ ∀ node ∈ back, fillsSlot node = true := by
  refine ⟨nodes.takeWhile fillsSlot, (nodes.dropWhile fillsSlot).takeWhile (!fillsSlot ·),
    (nodes.dropWhile fillsSlot).dropWhile (!fillsSlot ·), ?_, ?_, ?_, List.all_eq_true.1 together⟩
  · rw [List.takeWhile_append_dropWhile, List.takeWhile_append_dropWhile]
  · exact fun node member => List.mem_takeWhile_imp member
  · intro node member
    have outside := List.mem_takeWhile_imp member
    simpa using outside

end ComponentMarkdown.Node
