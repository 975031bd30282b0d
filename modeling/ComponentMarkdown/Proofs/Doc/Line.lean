import ComponentMarkdown.Proofs.Doc.Writing
import ComponentMarkdown.Proofs.Markup.Text
import ComponentMarkdown.Proofs.Slugged

namespace ComponentMarkdown

namespace MarkedNode

/-- Whether the attributes of every mark are a map. -/
def wellFormed (item : MarkedNode) : Bool := item.marks.all Mark.wellFormed

theorem dropOuter_wellFormed {item : MarkedNode} (valid : item.wellFormed = true) :
    item.dropOuter.wellFormed = true := by
  rw [wellFormed, List.all_eq_true] at valid ⊢
  exact fun mark member => valid mark ((List.dropLast_sublist _).subset member)

theorem wellFormed_of_outer {item : MarkedNode} (valid : item.wellFormed = true) :
    ∀ mark ∈ item.marks.getLast?, mark.wellFormed = true := by
  rw [wellFormed, List.all_eq_true] at valid
  exact fun mark last => valid mark (List.mem_of_getLast? last)

theorem marks_eq_nil_of_unmarked {item : MarkedNode} (unmarked : Mark.sameOption none item.marks.getLast? = true) :
    item.marks = [] := by
  cases last : item.marks.getLast? with
  | none => exact List.getLast?_eq_none_iff.1 last
  | some mark =>
    rw [last] at unmarked
    cases unmarked

theorem coalesced?_eq_some {x y z : MarkedNode} (merged : coalesced? x y = some z) :
    ∃ marks content marks' next, x = ⟨marks, .text content⟩ ∧ y = ⟨marks', .text next⟩ ∧
      Mark.sameList marks marks' = true ∧ z = ⟨marks, .text (content ++ next)⟩ := by
  obtain ⟨marks, node⟩ := x
  obtain ⟨marks', node'⟩ := y
  cases node <;> cases node' <;> simp only [coalesced?, reduceCtorEq] at merged
  split at merged
  · rename_i content next same
    exact ⟨marks, content, marks', next, rfl, rfl, same, (Option.some.inj merged).symm⟩
  · exact absurd merged (by simp)

theorem coalesced?_of_same {marks marks' : List Mark} (same : Mark.sameList marks marks' = true)
    (content next : String) :
    coalesced? ⟨marks, .text content⟩ ⟨marks', .text next⟩ = some ⟨marks, .text (content ++ next)⟩ := by
  rw [coalesced?, if_pos same]

theorem sameList_left_iff {a b c : List Mark} (valid : a.all Mark.wellFormed = true)
    (valid' : b.all Mark.wellFormed = true) (same : Mark.sameList a b = true) :
    Mark.sameList a c = true ↔ Mark.sameList b c = true := by
  rw [List.all_eq_true] at valid valid'
  exact ⟨Mark.sameList_trans (Mark.sameList_symm valid valid' same), Mark.sameList_trans same⟩

/-- Texts with equal marks can be joined in any order. -/
theorem coalesced?_inAnyOrder : MergesInAnyOrder coalesced? fun item => item.wellFormed = true where
  closed x y z valid _ merged := by
    obtain ⟨marks, content, marks', next, rfl, rfl, same, rfl⟩ := coalesced?_eq_some merged
    exact valid
  apart {x y z w} valid valid' _ merged apart := by
    obtain ⟨marks, content, marks', next, rfl, rfl, same, rfl⟩ := coalesced?_eq_some merged
    obtain ⟨marks'', node⟩ := w
    cases node with
    | element | comment => rfl
    | text last =>
      have differ : ¬ Mark.sameList marks' marks'' = true := fun equal => by
        rw [coalesced?_of_same equal] at apart
        cases apart
      rw [← sameList_left_iff valid valid' same] at differ
      rw [coalesced?, if_neg differ]
  joins {x y z w u} valid valid' _ merged joins := by
    obtain ⟨marks, content, marks', next, rfl, rfl, same, rfl⟩ := coalesced?_eq_some merged
    obtain ⟨_, _, marks'', last, rest, rfl, same', rfl⟩ := coalesced?_eq_some joins
    cases rest
    refine ⟨⟨marks, .text (content ++ next ++ last)⟩, ?_, ?_⟩
    · rw [coalesced?_of_same same, String.append_assoc]
    · rw [coalesced?_of_same ((sameList_left_iff valid valid' same).2 same')]

/-- Texts in a row with the same marks are one. -/
theorem coalesce_texts {marks : List Mark} (valid : marks.all Mark.wellFormed = true) {texts : List String}
    (nonempty : texts ≠ []) :
    coalesce (texts.map fun s => ⟨marks, .text s⟩) = [⟨marks, .text (String.join texts)⟩] := by
  have same : Mark.sameList marks marks = true := Mark.sameList_refl (List.all_eq_true.1 valid)
  rw [coalesce_eq]
  induction texts with
  | nil => exact absurd rfl nonempty
  | cons s rest ih =>
    rw [List.map_cons, mergeNeighbours_cons]
    by_cases last : rest = []
    · subst last
      rw [String.join_cons, String.join_nil, String.append_empty]
      rfl
    · rw [ih last, consMerging_of_some (coalesced?_of_same same s _), String.join_cons]

end MarkedNode

namespace DocNode

/-- Whether the attributes of every mark on a node are a map. -/
def isWellMarked (node : DocNode) : Bool := node.marks.all Mark.wellFormed

/-- A line before its marks are made elements, texts joined. -/
def runs [Surroundings] (nodes : List DocNode) : Slugged (List MarkedNode) := do
  return MarkedNode.coalesce (← Writing.marked (nodes.map writing))

theorem line_eq [Surroundings] (nodes : List DocNode) :
    Writing.line (nodes.map writing) = do
      return Node.joinSplitMarks (MarkedNode.nest (← runs nodes)) := by
  simp only [Writing.line, runs, bind_assoc, pure_bind]

theorem runs_cons [Surroundings] (node : DocNode) (rest : List DocNode) :
    runs (node :: rest) = do
      let items ← node.writing.inline
      let tail ← runs rest
      return items.foldr (consMerging MarkedNode.coalesced?) tail := by
  simp only [runs, List.map_cons, Writing.marked, bind_assoc, pure_bind, MarkedNode.coalesce_eq, mergeNeighbours,
    List.foldr_append]

theorem runs_text [Surroundings] (content : String) (marks : List Mark) (rest : List DocNode) :
    runs (.text content marks :: rest) = do
      return consMerging MarkedNode.coalesced? ⟨marks, .text content⟩ (← runs rest) := by
  rw [runs_cons, writing_inline]
  simp only [Writing.inlineOf, pure_bind, List.foldr_cons, List.foldr_nil]

/-- What a node is written as has its marks or none. -/
theorem inline_wellFormed [Surroundings] {node : DocNode} (valid : node.isWellMarked = true) :
    Slugged.Gives (fun items => ∀ item ∈ items, item.wellFormed = true) node.writing.inline := by
  rw [writing_inline]
  have unmarked : ∀ nodes : List Node, ∀ item ∈ nodes.map (MarkedNode.mk []), item.wellFormed = true := by
    intro nodes item member
    obtain ⟨_, _, rfl⟩ := List.mem_map.1 member
    rfl
  cases node
  case text | emoji | hardBreak | image | video | binding => exact .pure (List.forall_mem_singleton.2 valid)
  case link | spanStyle | inlineElement =>
    refine (Slugged.Gives.any _).bind fun _ _ => .pure ?_
    exact List.forall_mem_singleton.2 valid
  case comment | unknown => exact .pure (by simp [MarkedNode.wellFormed])
  all_goals exact (Slugged.Gives.any _).bind fun nodes _ => .pure (unmarked nodes)

theorem runs_wellFormed [Surroundings] {nodes : List DocNode} (valid : ∀ node ∈ nodes, node.isWellMarked = true) :
    Slugged.Gives (fun items => ∀ item ∈ items, item.wellFormed = true) (runs nodes) := by
  induction nodes with
  | nil => exact .pure (by simp [MarkedNode.coalesce])
  | cons node rest ih =>
    obtain ⟨here, below⟩ := List.forall_mem_cons.1 valid
    rw [runs_cons]
    refine (inline_wellFormed here).bind fun items first => (ih below).bind fun tail later => .pure ?_
    exact forall_foldr_consMerging MarkedNode.coalesced?_inAnyOrder.closed first later

/-- Two texts in a document joined. -/
def joined? : DocNode → DocNode → Option DocNode
  | text content marks, text next marks' =>
    if Mark.sameList marks marks' then some (.text (content ++ next) marks) else none
  | _, _ => none

theorem joined?_eq_some {x y z : DocNode} (merged : joined? x y = some z) :
    ∃ content marks next marks', x = text content marks ∧ y = text next marks' ∧
      Mark.sameList marks marks' = true ∧ z = text (content ++ next) marks := by
  unfold joined? at merged
  split at merged
  · rename_i content marks next marks'
    split at merged
    · rename_i same
      exact ⟨content, marks, next, marks', rfl, rfl, same, (Option.some.inj merged).symm⟩
    · exact absurd merged (by simp)
  · exact absurd merged (by simp)

theorem joinTexts_eq (nodes : List DocNode) : Reading.joinTexts nodes = mergeNeighbours joined? nodes := by
  induction nodes with
  | nil => rfl
  | cons node rest ih =>
    rw [mergeNeighbours_cons, ← ih]
    by_cases text : ∃ content marks, node = .text content marks
    · obtain ⟨content, marks, rfl⟩ := text
      rw [Reading.joinTexts]
      split
      · rename_i next marks' tail first
        rw [first]
        by_cases same : Mark.sameList marks marks' = true
        · simp only [same, if_true, consMerging, joined?]
        · simp only [same, Bool.false_eq_true, if_false, consMerging, joined?]
      · rename_i apart
        cases first : Reading.joinTexts rest with
        | nil => rfl
        | cons next tail =>
          rw [consMerging_of_none]
          cases merged : joined? (.text content marks) next with
          | none => rfl
          | some z =>
            obtain ⟨_, _, next, marks', _, rfl, _⟩ := joined?_eq_some merged
            exact absurd first (apart next marks' tail)
    · have alone : ∀ next, joined? node next = none := by
        intro next
        cases merged : joined? node next with
        | none => rfl
        | some z =>
          obtain ⟨content, marks, _, _, rfl, _⟩ := joined?_eq_some merged
          exact absurd ⟨content, marks, rfl⟩ text
      rw [Reading.joinTexts]
      · cases Reading.joinTexts rest with
        | nil => rfl
        | cons next tail => rw [consMerging_of_none (alone next)]
      · intro content marks same
        exact text ⟨content, marks, same⟩

theorem joined?_wellMarked (x y z : DocNode) (valid : x.isWellMarked = true) (_ : y.isWellMarked = true)
    (merged : joined? x y = some z) : z.isWellMarked = true := by
  obtain ⟨content, marks, next, marks', rfl, rfl, same, rfl⟩ := joined?_eq_some merged
  exact valid

theorem joinTexts_wellMarked {nodes : List DocNode} (valid : ∀ node ∈ nodes, node.isWellMarked = true) :
    ∀ node ∈ Reading.joinTexts nodes, node.isWellMarked = true := by
  rw [joinTexts_eq]
  exact forall_mergeNeighbours joined?_wellMarked valid

theorem runs_cons_congr [Surroundings] {rest rest' : List DocNode} (same : runs rest = runs rest')
    (node : DocNode) : runs (node :: rest) = runs (node :: rest') := by
  rw [runs_cons, runs_cons, same]

/-- A text that two texts were joined to is written as the two texts are. -/
theorem runs_joined [Surroundings] {x y z : DocNode} (valid : x.isWellMarked = true)
    (valid' : y.isWellMarked = true)
    (merged : joined? x y = some z) {rest : List DocNode} (below : ∀ node ∈ rest, node.isWellMarked = true) :
    runs (z :: rest) = runs (x :: y :: rest) := by
  obtain ⟨content, marks, next, marks', rfl, rfl, same, rfl⟩ := joined?_eq_some merged
  funext registry
  have tail := runs_wellFormed below registry
  have order := MarkedNode.coalesced?_inAnyOrder.consMerging_merged (x := ⟨marks, .text content⟩)
    (y := ⟨marks', .text next⟩) valid valid' tail (MarkedNode.coalesced?_of_same same content next)
  rw [runs_text, runs_text, runs_text]
  simp only [bind_assoc, pure_bind]
  change ((runs rest >>= _).run registry) = ((runs rest >>= _).run registry)
  rw [Slugged.run_bind, Slugged.run_bind, ← order]

/-- Joining the texts of a line does not change what the line is written as. -/
theorem runs_joinTexts [Surroundings] {nodes : List DocNode} (valid : ∀ node ∈ nodes, node.isWellMarked = true) :
    runs (Reading.joinTexts nodes) = runs nodes := by
  induction nodes with
  | nil => rfl
  | cons node rest ih =>
    obtain ⟨here, below⟩ := List.forall_mem_cons.1 valid
    have later := joinTexts_wellMarked below
    rw [← runs_cons_congr (ih below)]
    rw [joinTexts_eq, mergeNeighbours_cons, ← joinTexts_eq]
    cases split : Reading.joinTexts rest with
    | nil => rfl
    | cons next tail =>
      rw [split, List.forall_mem_cons] at later
      cases rule : joined? node next with
      | none => rw [consMerging_of_none rule]
      | some z => rw [consMerging_of_some rule, runs_joined here later.1 rule later.2]

theorem line_joinTexts [Surroundings] {nodes : List DocNode} (valid : ∀ node ∈ nodes, node.isWellMarked = true) :
    Writing.line ((Reading.joinTexts nodes).map writing) = Writing.line (nodes.map writing) := by
  rw [line_eq, line_eq, runs_joinTexts valid]

end DocNode

end ComponentMarkdown
