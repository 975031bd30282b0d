import ComponentMarkdown.Proofs.Doc.Editable

namespace ComponentMarkdown

namespace StyledChar

/-- The mark that a blank between two characters takes, given their outermost marks. -/
def bridge? : Option Mark → Option Mark → Option Mark
  | some mark, some mark' => if mark.same mark' ∧ mark.kind ≠ .code then some mark else none
  | _, _ => none

/-- The outermost mark of the first character. -/
def firstOuter? (line : List StyledChar) : Option Mark := line.head?.bind fun c => c.2.getLast?

/-- The line in which every blank without marks that stands alone between characters with the same outermost
mark, other than code, has that mark. Before the line stands a character with the outermost mark `before`. -/
def bridged (before : Option Mark) : List StyledChar → List StyledChar
  | [] => []
  | (c, marks) :: rest =>
    (c, if c = ' ' ∧ marks = [] then (bridge? before (firstOuter? rest)).toList else marks) ::
      bridged marks.getLast? rest

theorem bridge?_none_left (after : Option Mark) : bridge? none after = none := rfl

theorem bridge?_none_right (before : Option Mark) : bridge? before none = none := by
  cases before <;> rfl

theorem bridge?_eq_some {before after : Option Mark} {mark : Mark} (bridge : bridge? before after = some mark) :
    ∃ mark', before = some mark ∧ after = some mark' ∧ mark.same mark' = true ∧ mark.kind ≠ .code := by
  cases before with
  | none => cases bridge
  | some left =>
    cases after with
    | none => cases bridge
    | some right =>
      rw [bridge?] at bridge
      split at bridge
      · rename_i both
        cases bridge
        exact ⟨right, rfl, rfl, both⟩
      · cases bridge

theorem under_same {mark mark' : Mark} (same : mark.same mark' = true) (valid : mark.wellFormed = true)
    (valid' : mark'.wellFormed = true) {line : List StyledChar}
    (inside : ∀ c ∈ line, c.2.all Mark.wellFormed = true) :
    AllSame (line.map (under [mark])) (line.map (under [mark'])) := by
  refine List.forall₂_map_left_iff.2 (List.forall₂_map_right_iff.2 (List.forall₂_same.2 fun c member => ?_))
  have inner := List.all_eq_true.1 (inside c member)
  exact ⟨rfl, Mark.sameList_concat inner same, Mark.concat_wellFormed inner valid,
    Mark.concat_wellFormed inner valid'⟩

/-- Characters that all have the same outermost mark stay as they are. -/
theorem bridged_append_of_marked {mark : Mark} {line : List StyledChar} (some : line ≠ [])
    (marked : ∀ c ∈ line, c.2.getLast? = .some mark) (before : Option Mark) (rest : List StyledChar) :
    bridged before (line ++ rest) = line ++ bridged (.some mark) rest := by
  induction line generalizing before with
  | nil => exact absurd rfl some
  | cons c more ih =>
    obtain ⟨outer, below⟩ := List.forall_mem_cons.1 marked
    obtain ⟨c, marks⟩ := c
    have notEmpty : ¬ (c = ' ' ∧ marks = []) := by
      rintro ⟨_, rfl⟩
      cases outer
    rw [List.cons_append, bridged, if_neg notEmpty, outer, List.cons_append]
    by_cases last : more = []
    · subst last
      rfl
    · rw [ih last below]

/-- Of characters without marks only a blank alone can change. -/
theorem bridged_append_of_unmarked {line : List StyledChar} (some : line ≠ [])
    (unmarked : ∀ c ∈ line, c.2 = []) {before : Option Mark} {rest : List StyledChar}
    (alone : line = [(' ', [])] → bridge? before (firstOuter? rest) = none) :
    bridged before (line ++ rest) = line ++ bridged none rest := by
  induction line generalizing before with
  | nil => exact absurd rfl some
  | cons c more ih =>
    obtain ⟨here, below⟩ := List.forall_mem_cons.1 unmarked
    obtain ⟨c, marks⟩ := c
    obtain rfl : marks = [] := here
    cases more with
    | nil =>
      by_cases blank : c = ' '
      · subst blank
        rw [List.cons_append, List.nil_append, bridged, alone rfl, if_pos ⟨rfl, rfl⟩]
        rfl
      · rw [List.cons_append, List.nil_append, bridged, if_neg fun both => blank both.1]
        rfl
    | cons next more =>
      have apart : firstOuter? ((next :: more) ++ rest) = none := by
        rw [firstOuter?, List.cons_append, List.head?_cons, Option.bind_some,
          (List.forall_mem_cons.1 below).1, List.getLast?_nil]
      rw [List.cons_append, bridged, apart, bridge?_none_right, Option.toList_none, ite_self, List.getLast?_nil,
        ih (List.cons_ne_nil _ _) below fun _ => bridge?_none_left _]
      rfl

theorem bridged_blank {before : Option Mark} {rest : List StyledChar} {mark : Mark}
    (bridge : bridge? before (firstOuter? rest) = some mark) :
    bridged before (ofText (" ", []) ++ rest) = (' ', [mark]) :: bridged none rest := by
  have chars : ofText (" ", []) ++ rest = (' ', []) :: rest := rfl
  rw [chars, bridged, bridge, if_pos ⟨rfl, rfl⟩]
  rfl

/-- No outermost marks, or equal ones. -/
abbrev SameOuter : Option Mark → Option Mark → Prop :=
  Option.Rel fun mark mark' => mark.same mark' = true ∧ mark.wellFormed = true ∧ mark'.wellFormed = true

theorem Same.outer {c c' : StyledChar} (same : Same c c') : SameOuter c.2.getLast? c'.2.getLast? := by
  obtain ⟨_, marks⟩ := c
  obtain ⟨_, marks'⟩ := c'
  have both := Mark.sameList_iff.1 same.marks
  have valid := List.all_eq_true.1 same.valid
  have valid' := List.all_eq_true.1 same.valid'
  simp only at both valid valid' ⊢
  rcases List.eq_nil_or_concat' marks with rfl | ⟨inner, mark, rfl⟩
  · rw [List.forall₂_nil_left_iff.1 both]
    exact .none
  · rcases List.eq_nil_or_concat' marks' with rfl | ⟨inner', mark', rfl⟩
    · exact absurd (List.forall₂_nil_right_iff.1 both) (by simp)
    · have last := List.rel_reverse both
      rw [List.reverse_concat, List.reverse_concat, List.forall₂_cons] at last
      rw [List.getLast?_concat, List.getLast?_concat]
      exact .some ⟨last.1, valid mark (by simp), valid' mark' (by simp)⟩

theorem AllSame.firstOuter {line line' : List StyledChar} (same : AllSame line line') :
    SameOuter (firstOuter? line) (firstOuter? line') := by
  cases same with
  | nil => exact .none
  | cons first _ => exact first.outer

theorem bridge?_same {before before' after after' : Option Mark} (left : SameOuter before before')
    (right : SameOuter after after') : SameOuter (bridge? before after) (bridge? before' after') := by
  cases left with
  | none => exact .none
  | @some mark mark' left =>
    cases right with
    | none => exact .none
    | @some other other' right =>
      obtain ⟨same, valid, valid'⟩ := left
      obtain ⟨same', validOther, validOther'⟩ := right
      have kinds := (Mark.same_iff.1 same).1
      have back := Mark.same_symm valid valid' same
      have equal : mark.same other = true ↔ mark'.same other' = true := by
        constructor
        · intro equal
          exact Mark.same_trans back (Mark.same_trans equal same')
        · intro equal
          exact Mark.same_trans same (Mark.same_trans equal (Mark.same_symm validOther validOther' same'))
      simp only [bridge?, equal, kinds]
      split
      · exact .some ⟨same, valid, valid'⟩
      · exact .none

/-- Lines with equal characters are bridged in the same places. -/
theorem AllSame.bridged {line line' : List StyledChar} (same : AllSame line line') {before before' : Option Mark}
    (outer : SameOuter before before') : AllSame (bridged before line) (StyledChar.bridged before' line') := by
  induction same generalizing before before' with
  | nil => exact .nil
  | @cons c c' rest rest' first below ih =>
    refine .cons ?_ (ih first.outer)
    obtain ⟨char, marks⟩ := c
    obtain ⟨char', marks'⟩ := c'
    obtain rfl : char = char' := first.char
    have unmarked : marks = [] ↔ marks' = [] := by
      have length := (Mark.sameList_iff.1 first.marks).length_eq
      rw [← List.length_eq_zero_iff, ← List.length_eq_zero_iff]
      simp only at length
      rw [length]
    have bridge := bridge?_same outer (AllSame.firstOuter below)
    simp only [unmarked]
    split
    · generalize bridge? before (firstOuter? rest) = mark at bridge
      generalize bridge? before' (firstOuter? rest') = mark' at bridge
      cases bridge with
      | none => exact ⟨rfl, rfl, rfl, rfl⟩
      | some both =>
        obtain ⟨equal, valid, valid'⟩ := both
        exact ⟨rfl, by simp [Mark.sameList, equal], by simp [valid], by simp [valid']⟩
    · exact first

end StyledChar

namespace Node

/-- What holds of texts and of the nodes in a line holds after texts are glued. -/
theorem forall_glueTexts {P : Node → Prop} (text : ∀ content, P (.text content)) {nodes : List Node}
    (each : ∀ node ∈ nodes, P node) : ∀ node ∈ glueTexts nodes, P node := by
  rw [glueTexts_eq]
  refine forall_mergeNeighbours ?_ each
  intro x y z _ _ glued
  obtain ⟨content, next, rfl, rfl, rfl⟩ := glued?_eq_some glued
  exact text (content ++ next)

end Node

/-- What two elements hold, one element holds with the blank between. -/
theorem MarkKind.Holds.joined [Surroundings] {kind : MarkKind} {children children' : List Node}
    (noCode : kind ≠ .code) (left : kind.Holds children) (right : kind.Holds children') :
    kind.Holds (Node.glueTexts (children ++ .text " " :: children')) where
  formatted := by
    have left := Node.areFormattedText_iff.1 left.formatted
    have right := Node.areFormattedText_iff.1 right.formatted
    refine Node.areFormattedText_iff.2 (Node.forall_glueTexts (fun _ => rfl) (List.forall_mem_append.2 ⟨left, ?_⟩))
    exact List.forall_mem_cons.2 ⟨rfl, right⟩
  some := by
    rw [Node.styledAll_glueTexts, Node.styledAll_append]
    exact List.append_ne_nil_of_left_ne_nil left.some _
  code code := absurd code noCode
  link link := by
    have left := Node.areMarkedText_iff.1 (left.link link)
    have right := Node.areMarkedText_iff.1 (right.link link)
    refine Node.areMarkedText_iff.2 (Node.forall_glueTexts (fun _ => rfl) (List.forall_mem_append.2 ⟨left, ?_⟩))
    exact List.forall_mem_cons.2 ⟨rfl, right⟩

namespace Node

open MarkedNode StyledChar

theorem joinSplitMarks_cons (node : Node) (rest : List Node) :
    joinSplitMarks (node :: rest) = consJoining node (joinSplitMarks rest) := rfl

theorem joinSplitMarks_text (content : String) (rest : List Node) :
    joinSplitMarks (.text content :: rest) = .text content :: joinSplitMarks rest := by
  rw [joinSplitMarks_cons]
  match joinSplitMarks rest with
  | [] => rfl
  | [_] => rfl
  | _ :: _ :: _ => rfl

/-- The element of a mark in front of a line may take in more of the line. -/
theorem exists_joinSplitMarks_markElement [Surroundings] (mark : Mark) (children rest : List Node) :
    ∃ inner tail, joinSplitMarks (markElement mark children :: rest) = markElement mark inner :: tail := by
  rw [joinSplitMarks_cons]
  match joinSplitMarks rest with
  | [] => exact ⟨children, _, rfl⟩
  | [_] => exact ⟨children, _, rfl⟩
  | space :: right :: more =>
    rw [consJoining]
    cases fused : joinOver? (markElement mark children) space right with
    | none => exact ⟨children, _, rfl⟩
    | some joined =>
      obtain ⟨tag, attrs, left, _, right, _, _, same, _, _, rfl⟩ := joinOver?_eq_some fused
      rw [markElement_eq] at same
      cases same
      exact ⟨_, more, rfl⟩

section Marks

variable {mark other : Mark} {children children' : List Node}

/-- The elements of marks are joined over a blank if the marks are the same and not code. -/
theorem joinOver?_markElement [Surroundings] (editable : mark.IsEditable) (editable' : other.IsEditable) :
    joinOver? (markElement mark children) (.text " ") (markElement other children') =
      if mark.same other ∧ mark.kind ≠ .code then
        some (markElement mark (glueTexts (children ++ .text " " :: children')))
      else none := by
  have joinable : mark.kind.tag ∈ joinableTags ↔ mark.kind ≠ .code := by
    cases mark.kind <;> decide
  have condition : (mark.kind.tag = other.kind.tag ∧ mark.written.same other.written ∧
      mark.kind.tag ∈ joinableTags) ↔ (mark.same other ∧ mark.kind ≠ .code) := by
    rw [editable.same_iff editable', joinable, and_assoc]
    exact and_congr_left fun _ => ⟨MarkKind.tag_injective, congrArg MarkKind.tag⟩
  rw [markElement_eq, markElement_eq, joinOver?]
  simp only [condition]
  rfl

theorem IsTidy.holds [Surroundings] (tidy : (markElement mark children).IsTidy) : mark.kind.Holds children := by
  generalize element : markElement mark children = node at tidy
  cases tidy with
  | text =>
    rw [markElement_eq] at element
    cases element
  | marked _ holds =>
    rw [markElement_eq, markElement_eq, Node.element.injEq] at element
    obtain ⟨tags, _, rfl⟩ := element
    rw [MarkKind.tag_injective tags]
    exact holds

end Marks

/-- Joining over blanks leaves text and elements of marks. -/
theorem isTidy_joinSplitMarks [Surroundings] {nodes : List Node} (tidy : ∀ node ∈ nodes, node.IsTidy) :
    ∀ node ∈ joinSplitMarks nodes, node.IsTidy := by
  induction nodes with
  | nil => exact tidy
  | cons node rest ih =>
    obtain ⟨here, below⟩ := List.forall_mem_cons.1 tidy
    have later := ih below
    rw [joinSplitMarks_cons]
    match split : joinSplitMarks rest with
    | [] => exact List.forall_mem_singleton.2 here
    | [space] =>
      rw [split] at later
      exact List.forall_mem_cons.2 ⟨here, later⟩
    | space :: right :: more =>
      rw [split] at later
      rw [consJoining]
      cases fused : joinOver? node space right with
      | none => exact List.forall_mem_cons.2 ⟨here, later⟩
      | some joined =>
        simp only [List.forall_mem_cons] at later
        obtain ⟨_, right, later⟩ := later
        refine List.forall_mem_cons.2 ⟨?_, later⟩
        obtain ⟨_, _, _, _, _, _, _, left', rfl, right', _⟩ := joinOver?_eq_some fused
        cases here with
        | text => cases left'
        | marked editable holds =>
          cases right with
          | text => cases right'
          | marked editable' holds' =>
            rw [joinOver?_markElement editable editable'] at fused
            split at fused
            · rename_i both
              cases fused
              rw [← (Mark.same_iff.1 both.1).1] at holds'
              exact .marked editable (holds.joined both.2 holds')
            · cases fused

/-- Whether a line goes on with the same formatting after a blank alone. -/
def Continues [Surroundings] (mark : Mark) (rest : List Node) : Prop :=
  ∃ other children more, rest = .text " " :: markElement other children :: more ∧ other.IsEditable ∧
    other.kind.Holds children ∧ mark.same other = true ∧ mark.kind ≠ .code

section Line

variable [Surroundings] {mark : Mark} {children rest : List Node} (editable : mark.IsEditable)

/-- The outermost mark of what stands in the element of a mark. -/
theorem getLast?_of_mem (holds : mark.kind.Holds children) (editable : mark.IsEditable) {c : StyledChar}
    (member : c ∈ (markElement mark children).styled []) : c.2.getLast? = some mark.reread := by
  rw [styled_markElement editable holds] at member
  obtain ⟨c, _, rfl⟩ := List.mem_map.1 member
  exact List.getLast?_concat

theorem styled_ne_nil {node : Node} (tidy : node.IsTidy) : node.styled [] ≠ [] := by
  cases tidy with
  | text some =>
    rw [styled]
    simpa [ofText] using some
  | marked editable holds =>
    rw [styled_markElement editable holds]
    simpa using holds.some

theorem firstOuter?_cons {node : Node} (tidy : node.IsTidy) (more : List Node) :
    ∃ c ∈ node.styled [], firstOuter? (styledAll [] (node :: more)) = c.2.getLast? := by
  obtain ⟨c, line, chars⟩ := List.exists_cons_of_ne_nil (styled_ne_nil tidy)
  refine ⟨c, by rw [chars]; exact List.mem_cons_self, ?_⟩
  rw [styledAll, chars, List.cons_append, firstOuter?, List.head?_cons, Option.bind_some]

theorem firstOuter?_markElement (holds : mark.kind.Holds children) (editable : mark.IsEditable) (more : List Node) :
    firstOuter? (styledAll [] (markElement mark children :: more)) = some mark.reread := by
  obtain ⟨c, member, first⟩ := firstOuter?_cons (.marked editable holds) more
  rw [first, getLast?_of_mem holds editable member]

/-- A line begins with an outermost mark if it begins with its element. -/
theorem firstOuter?_eq_some {nodes : List Node} (tidy : ∀ node ∈ nodes, node.IsTidy) {outer : Mark}
    (first : firstOuter? (styledAll [] nodes) = some outer) :
    ∃ other children more, nodes = markElement other children :: more ∧ other.IsEditable ∧
      other.kind.Holds children ∧ outer = other.reread := by
  cases nodes with
  | nil => cases first
  | cons node more =>
    cases (List.forall_mem_cons.1 tidy).1 with
    | text some =>
      obtain ⟨c, member, atFirst⟩ := firstOuter?_cons (.text some) more
      rw [styled, ofText] at member
      obtain ⟨_, _, rfl⟩ := List.mem_map.1 member
      rw [first] at atFirst
      cases atFirst
    | @marked other children editable holds =>
      rw [firstOuter?_markElement holds editable] at first
      exact ⟨other, children, more, rfl, editable, holds, (Option.some.inj first).symm⟩

/-- What the first node of a joined line comes from. -/
theorem joinSplitMarks_eq_cons {nodes : List Node} (tidy : ∀ node ∈ nodes, node.IsTidy) {first : Node}
    {tail : List Node} (joined : joinSplitMarks nodes = first :: tail) :
    (∃ content more, nodes = .text content :: more ∧ first = .text content ∧ joinSplitMarks more = tail) ∨
    ∃ other children more inner, nodes = markElement other children :: more ∧ other.IsEditable ∧
      other.kind.Holds children ∧ first = markElement other inner := by
  cases nodes with
  | nil => cases joined
  | cons node more =>
    cases (List.forall_mem_cons.1 tidy).1 with
    | @text content =>
      rw [joinSplitMarks_text, List.cons.injEq] at joined
      exact Or.inl ⟨content, more, rfl, joined.1.symm, joined.2⟩
    | @marked other children editable holds =>
      obtain ⟨inner, _, split⟩ := exists_joinSplitMarks_markElement other children more
      rw [split, List.cons.injEq] at joined
      exact Or.inr ⟨other, children, more, inner, rfl, editable, holds, joined.1.symm⟩

include editable

/-- A blank alone takes no mark from the element before it, unless the line continues with the same. -/
theorem bridge?_eq_none (tidy : ∀ node ∈ rest, node.IsTidy) (apart : ¬ Continues mark rest) {more : List Node}
    (blank : rest = .text " " :: more) :
    bridge? (some mark.reread) (firstOuter? (styledAll [] more)) = none := by
  subst blank
  cases bridge : bridge? (some mark.reread) (firstOuter? (styledAll [] more)) with
  | none => rfl
  | some outer =>
    obtain ⟨outer', own, first, same, noCode⟩ := bridge?_eq_some bridge
    obtain ⟨other, children, more, rfl, editable', holds, rfl⟩ :=
      firstOuter?_eq_some (List.forall_mem_cons.1 tidy).2 first
    cases own
    have back := Mark.same_symm (Mark.reread_wellFormed editable.wellFormed) editable.wellFormed editable.reread
    have equal := Mark.same_trans back (Mark.same_trans same editable'.reread)
    exact absurd ⟨other, children, more, rfl, editable', holds, equal, noCode⟩ apart

/-- An element stays as it is, unless the line continues with the same mark after a blank alone. -/
theorem joinSplitMarks_markElement (tidy : ∀ node ∈ rest, node.IsTidy) (apart : ¬ Continues mark rest) :
    joinSplitMarks (markElement mark children :: rest) = markElement mark children :: joinSplitMarks rest := by
  rw [joinSplitMarks_cons]
  match split : joinSplitMarks rest with
  | [] => rfl
  | [_] => rfl
  | space :: right :: tail =>
    rw [consJoining]
    cases fused : joinOver? (markElement mark children) space right with
    | none => rfl
    | some joined =>
      obtain ⟨_, _, _, _, _, _, _, _, blank, element, _⟩ := joinOver?_eq_some fused
      rcases joinSplitMarks_eq_cons tidy split with
        ⟨content, more, rfl, space', later⟩ | ⟨_, _, _, _, _, _, _, space'⟩
      · rcases joinSplitMarks_eq_cons (List.forall_mem_cons.1 tidy).2 later with
          ⟨_, _, _, right', _⟩ | ⟨other, children', more, inner, rfl, editable', holds, right'⟩
        · rw [right'] at element
          cases element
        · rw [space', Node.text.injEq] at blank
          rw [space', blank, right', joinOver?_markElement editable editable'] at fused
          split at fused
          · rename_i both
            rw [blank] at apart
            exact absurd ⟨other, children', more, rfl, editable', holds, both⟩ apart
          · cases fused
      · rw [space', markElement_eq] at blank
        cases blank

/-- The characters of an element stand in front of the line as they are. -/
theorem bridged_markElement (holds : mark.kind.Holds children) (before : Option Mark) (line : List StyledChar) :
    bridged before ((markElement mark children).styled [] ++ line) =
      (markElement mark children).styled [] ++ bridged (some mark.reread) line :=
  bridged_append_of_marked (styled_ne_nil (.marked editable holds))
    (fun _ member => getLast?_of_mem holds editable member) before line

/-- An element that is joined with the next one, where the rest of the line is joined as it should be. -/
theorem styled_joinOver (holds : mark.kind.Holds children) {other : Mark} {children' more : List Node}
    (editable' : other.IsEditable) (holds' : other.kind.Holds children') (same : mark.same other = true)
    (noCode : mark.kind ≠ .code) (tidy : ∀ node ∈ more, node.IsTidy)
    (valid : ∀ c ∈ (markElement mark children).styled [], c.2.all Mark.wellFormed = true) (before : Option Mark)
    (rest : AllSame (styledAll [] (joinSplitMarks (markElement other children' :: more)))
      (bridged none (styledAll [] (markElement other children' :: more)))) :
    AllSame
      (styledAll []
        (joinSplitMarks (markElement mark children :: .text " " :: markElement other children' :: more)))
      (bridged before
        (styledAll [] (markElement mark children :: .text " " :: markElement other children' :: more))) := by
  obtain ⟨inner, tail, split⟩ := exists_joinSplitMarks_markElement other children' more
  have joined : joinSplitMarks (markElement mark children :: .text " " :: markElement other children' :: more) =
      markElement mark (glueTexts (children ++ .text " " :: inner)) :: tail := by
    rw [joinSplitMarks_cons, joinSplitMarks_text, split, consJoining, joinOver?_markElement editable editable',
      if_pos ⟨same, noCode⟩]
  have kinds := (Mark.same_iff.1 same).1
  have holdsInner : other.kind.Holds inner := by
    have next : ∀ node ∈ markElement other children' :: more, node.IsTidy :=
      List.forall_mem_cons.2 ⟨.marked editable' holds', tidy⟩
    exact (isTidy_joinSplitMarks next _ (by rw [split]; exact List.mem_cons_self)).holds
  have whole : mark.kind.Holds (glueTexts (children ++ .text " " :: inner)) :=
    holds.joined noCode (kinds ▸ holdsInner)
  have equal : mark.reread.same other.reread = true :=
    Mark.reread_same editable.wellFormed editable'.wellFormed kinds ((editable.same_iff editable').1 same).2
  rw [joined, styledAll, styled_markElement editable whole, styledAll_glueTexts, styledAll_append, List.map_append,
    ← styled_markElement editable holds, styledAll_cons [] (markElement mark children),
    bridged_markElement editable holds, List.append_assoc]
  refine List.rel_append (AllSame.refl valid) ?_
  have blank : bridge? (some mark.reread) (firstOuter? (styledAll [] (markElement other children' :: more))) =
      some mark.reread := by
    rw [firstOuter?_markElement holds' editable', bridge?, if_pos ⟨equal, noCode⟩]
  have own := Mark.reread_wellFormed editable.wellFormed
  rw [split, styledAll_cons, styled_markElement editable' holdsInner] at rest
  obtain ⟨inside, after⟩ := List.forall_mem_append.1 rest.valid
  have plain : ∀ c ∈ styledAll [] inner, c.2.all Mark.wellFormed = true := by
    intro c member
    have marks := inside _ (List.mem_map_of_mem member)
    rw [StyledChar.under, List.all_append, Bool.and_eq_true] at marks
    exact marks.1
  rw [styledAll_cons, styledAll_cons, styled, List.map_append, bridged_blank blank]
  refine .cons (Same.refl (by rw [StyledChar.under, List.nil_append, List.all_cons, own]; rfl)) ?_
  refine AllSame.trans (List.rel_append ?_ (AllSame.refl after)) rest
  exact under_same equal own (Mark.reread_wellFormed editable'.wellFormed) plain

end Line

/-- Joining formatting over blanks gives the blanks the mark that they stand in, and changes nothing else. -/
theorem styled_joinSplitMarks [Surroundings] {nodes : List Node} (tidy : ∀ node ∈ nodes, node.IsTidy)
    (valid : ∀ c ∈ styledAll [] nodes, c.2.all Mark.wellFormed = true) {before : Option Mark}
    (alone : ∀ rest, nodes = .text " " :: rest → bridge? before (firstOuter? (styledAll [] rest)) = none) :
    AllSame (styledAll [] (joinSplitMarks nodes)) (bridged before (styledAll [] nodes)) := by
  induction nodes generalizing before with
  | nil => exact .nil
  | cons node rest ih =>
    obtain ⟨here, below⟩ := List.forall_mem_cons.1 tidy
    rw [styledAll, List.forall_mem_append] at valid
    obtain ⟨validHere, validBelow⟩ := valid
    cases here with
    | @text content some =>
      have unmarked : ∀ c ∈ ofText (content, []), c.2 = [] := by
        intro c member
        obtain ⟨_, _, rfl⟩ := List.mem_map.1 member
        rfl
      have nonempty : ofText (content, []) ≠ [] := by simpa [ofText] using some
      rw [joinSplitMarks_text, styledAll, styledAll, styled, bridged_append_of_unmarked nonempty unmarked]
      · refine List.rel_append (AllSame.refl validHere) (ih below validBelow ?_)
        exact fun more _ => bridge?_none_left _
      · intro single
        have chars : content.toList = [' '] := by simpa [ofText] using single
        have blank : content = " " := String.toList_inj.1 chars
        exact alone rest (by rw [blank])
    | @marked mark children editable holds =>
      by_cases joins : Continues mark rest
      · -- behind the blank the line goes on as if nothing stood in front of it
        obtain ⟨other, children', more, rfl, editable', holds', same, noCode⟩ := joins
        refine styled_joinOver editable holds editable' holds' same noCode
          (List.forall_mem_cons.1 (List.forall_mem_cons.1 below).2).2 validHere before ?_
        have whole : AllSame _ (bridged none _) := ih below validBelow fun more _ => bridge?_none_left _
        rw [joinSplitMarks_text, styledAll_cons, styledAll_cons [] (.text " ")] at whole
        exact (List.forall₂_cons.1 whole).2
      · rw [joinSplitMarks_markElement editable below joins, styledAll, styledAll,
          bridged_markElement editable holds]
        refine List.rel_append (AllSame.refl validHere) (ih below validBelow ?_)
        exact fun more blank => bridge?_eq_none editable below joins blank

end Node

end ComponentMarkdown
