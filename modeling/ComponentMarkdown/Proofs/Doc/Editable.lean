import ComponentMarkdown.Proofs.Doc.Styled
import ComponentMarkdown.Proofs.LinkPolicy

namespace ComponentMarkdown

namespace Mark

/-- Whether markup says all there is to a mark: code has a language only, and the attributes of a link are
those that the editor gives to a link of markup. -/
structure IsEditable [Surroundings] (mark : Mark) : Prop where
  wellFormed : mark.wellFormed = true
  code : mark.kind = .code → List.all mark.attrs (fun entry => entry.1 = "language") = true
  link : mark.kind = .link → ∃ attrs : Attrs, attrs.wellFormed = true ∧
    (LinkPolicy.markupAttrs (LinkPolicy.editorAttrs attrs)).same attrs = true ∧
    mark.attrs.same (LinkPolicy.editorAttrs attrs) = true

/-- The marks of a text in the editor: code stands innermost, and there is one link at most. -/
structure AreEditable [Surroundings] (marks : List Mark) : Prop where
  each : ∀ mark ∈ marks, mark.IsEditable
  codeFirst : ∀ mark ∈ marks.tail, mark.kind ≠ .code
  oneLink : marks.countP (fun mark => mark.kind = .link) ≤ 1

/-- The attributes of the element of a mark. -/
def written [Surroundings] (mark : Mark) : Attrs :=
  if mark.kind = .link then LinkPolicy.markupAttrs mark.attrs else mark.attrs

/-- The mark that the element of a mark is read as. -/
def reread [Surroundings] (mark : Mark) : Mark :=
  ⟨mark.kind, if mark.kind = .link then LinkPolicy.editorAttrs mark.written else mark.written⟩

variable {mark other : Mark}

theorem written_wellFormed [Surroundings] (valid : mark.wellFormed = true) : mark.written.wellFormed = true := by
  rw [written]
  split
  · exact LinkPolicy.markupAttrs_wellFormed valid
  · exact valid

theorem reread_wellFormed [Surroundings] (valid : mark.wellFormed = true) : mark.reread.wellFormed = true := by
  rw [wellFormed, reread]
  split
  · exact LinkPolicy.editorAttrs_wellFormed (written_wellFormed valid)
  · exact written_wellFormed valid

theorem written_same [Surroundings] (valid : mark.wellFormed = true) (valid' : other.wellFormed = true)
    (equal : mark.same other = true) : mark.written.same other.written = true := by
  obtain ⟨kind, attrs⟩ := same_iff.1 equal
  rw [written, written, kind]
  split
  · exact LinkPolicy.markupAttrs_same valid valid' attrs
  · exact attrs

theorem reread_same [Surroundings] (valid : mark.wellFormed = true) (valid' : other.wellFormed = true)
    (kind : mark.kind = other.kind) (equal : mark.written.same other.written = true) :
    mark.reread.same other.reread = true := by
  refine same_iff.2 ⟨kind, ?_⟩
  simp only [reread, kind]
  split
  · exact LinkPolicy.editorAttrs_same (written_wellFormed valid) (written_wellFormed valid') equal
  · exact equal

/-- A mark is read as it was written. -/
theorem IsEditable.reread [Surroundings] (editable : mark.IsEditable) : mark.reread.same mark = true := by
  have valid := editable.wellFormed
  refine same_iff.2 ⟨rfl, ?_⟩
  simp only [Mark.reread, written]
  split
  · rename_i link
    obtain ⟨attrs, plain, restored, given⟩ := editable.link link
    have plain' := LinkPolicy.editorAttrs_wellFormed plain
    have back : (LinkPolicy.markupAttrs mark.attrs).same attrs = true :=
      Attrs.same_trans (LinkPolicy.markupAttrs_same valid plain' given) restored
    have again := LinkPolicy.editorAttrs_same (LinkPolicy.markupAttrs_wellFormed valid) plain back
    exact Attrs.same_trans again (Attrs.same_symm valid plain' given)
  · exact Attrs.same_refl valid

/-- Marks are the same if their elements are. -/
theorem IsEditable.same_iff [Surroundings] (editable : mark.IsEditable) (editable' : other.IsEditable) :
    mark.same other = true ↔ mark.kind = other.kind ∧ mark.written.same other.written = true := by
  have valid := editable.wellFormed
  have valid' := editable'.wellFormed
  refine ⟨fun equal => ⟨(Mark.same_iff.1 equal).1, written_same valid valid' equal⟩, fun both => ?_⟩
  have read := same_trans (reread_same valid valid' both.1 both.2) editable'.reread
  exact same_trans (same_symm (reread_wellFormed valid) valid editable.reread) read

theorem AreEditable.dropLast [Surroundings] {marks : List Mark} (editable : AreEditable marks) :
    AreEditable marks.dropLast where
  each mark member := editable.each mark (List.dropLast_subset _ member)
  codeFirst mark member := by
    rw [List.tail_dropLast] at member
    exact editable.codeFirst mark (List.dropLast_subset _ member)
  oneLink := Nat.le_trans ((List.dropLast_sublist marks).countP_le) editable.oneLink

theorem concat_wellFormed {marks : List Mark} (valid : ∀ mark ∈ marks, mark.wellFormed = true)
    (last : mark.wellFormed = true) : (marks ++ [mark]).all wellFormed = true :=
  List.all_eq_true.2 (List.forall_mem_append.2 ⟨valid, List.forall_mem_singleton.2 last⟩)

theorem sameList_concat {marks : List Mark} (valid : ∀ mark ∈ marks, mark.wellFormed = true)
    (equal : mark.same other = true) : sameList (marks ++ [mark]) (marks ++ [other]) = true :=
  sameList_iff.2 (List.rel_append (sameList_iff.1 (sameList_refl valid)) (.cons equal .nil))

end Mark

namespace StyledChar

theorem AllSame.under {a b : List StyledChar} (same : AllSame a b) {outer : List Mark}
    (valid : outer.all Mark.wellFormed = true) : AllSame (a.map (under outer)) (b.map (under outer)) := by
  refine List.forall₂_map_left_iff.2 (List.forall₂_map_right_iff.2 (same.imp fun x y each => ?_))
  have outside := Mark.sameList_iff.1 (Mark.sameList_refl (List.all_eq_true.1 valid))
  refine ⟨each.char, Mark.sameList_iff.2 (List.rel_append (Mark.sameList_iff.1 each.marks) outside), ?_, ?_⟩
  · exact List.all_append.trans (by rw [each.valid, valid]; rfl)
  · exact List.all_append.trans (by rw [each.valid', valid]; rfl)

end StyledChar

/-- Whether nodes can stand in the element of a mark in a line of formatted text. -/
structure MarkKind.Holds [Surroundings] (kind : MarkKind) (children : List Node) : Prop where
  formatted : Node.areFormattedText children = true
  some : Node.styledAll [] children ≠ []
  code : kind = .code → ∀ child ∈ children, ∃ content, child = .text content
  link : kind = .link → Node.areMarkedText children = true

namespace MarkedNode

section Element

variable {mark : Mark} {children : List Node}

theorem markElement_eq [Surroundings] (mark : Mark) (children : List Node) :
    markElement mark children = .element mark.kind.tag mark.written children := rfl

theorem mark?_markElement [Surroundings] (holds : mark.kind.Holds children) :
    (markElement mark children).mark? = some mark.reread := by
  rw [markElement_eq, Node.mark?, MarkKind.ofTag?_tag]
  obtain ⟨kind, attrs⟩ := mark
  cases kind with
  | link =>
    simp only [holds.link rfl, if_true]
    rfl
  | bold | italic | strike | code => rfl

theorem isFormattedText_markElement [Surroundings] (holds : mark.kind.Holds children) :
    (markElement mark children).isFormattedText = true := by
  have marked := mark?_markElement holds
  rw [markElement_eq] at marked ⊢
  rw [Node.isFormattedText, marked]
  simp only [holds.formatted, Bool.or_true]

theorem styledAll_texts [Surroundings] (marks : List Mark) {nodes : List Node}
    (texts : ∀ node ∈ nodes, ∃ content, node = .text content) :
    Node.styledAll marks nodes = StyledChar.ofText (Node.textOf nodes, marks) := by
  induction nodes with
  | nil => rfl
  | cons node rest ih =>
    obtain ⟨⟨content, rfl⟩, below⟩ := List.forall_mem_cons.1 texts
    rw [Node.styledAll, Node.styled, ih below, ← StyledChar.ofText_append]
    rfl

/-- The characters of the element of a mark are those in it, under the mark as it is read. -/
theorem styled_markElement [Surroundings] (editable : mark.IsEditable) (holds : mark.kind.Holds children)
    (marks : List Mark) : (markElement mark children).styled marks =
      (Node.styledAll [] children).map (StyledChar.under (mark.reread :: marks)) := by
  have marked := mark?_markElement holds
  rw [markElement_eq] at marked ⊢
  rw [Node.styled, marked, ← Node.styledAll_under, List.nil_append]
  by_cases code : mark.kind = .code
  · have language : (⟨.code, mark.written.field "language"⟩ : Mark) = mark.reread := by
      have distinct := Attrs.distinct_of_wellFormed editable.wellFormed
      simp only [Mark.reread, Mark.written, code, reduceCtorEq, if_false]
      rw [Attrs.field_of_only distinct (editable.code code)]
    simp only [Mark.reread, code, if_true]
    rw [styledAll_texts _ (holds.code code), language]
    simp only [Mark.reread, code]
  · simp only [Mark.reread, code, if_false]

end Element

end MarkedNode

/-- Nodes of a line that marks are made of: text that says something, and elements of marks around such. -/
inductive Node.IsTidy [Surroundings] : Node → Prop
  | text {content : String} (some : content ≠ "") : IsTidy (.text content)
  | marked {mark : Mark} {children : List Node} (editable : mark.IsEditable) (holds : mark.kind.Holds children) :
    IsTidy (MarkedNode.markElement mark children)

theorem Node.IsTidy.isFormattedText [Surroundings] {node : Node} (tidy : node.IsTidy) :
    node.isFormattedText = true := by
  cases tidy with
  | text => rfl
  | marked _ holds => exact MarkedNode.isFormattedText_markElement holds

namespace MarkedNode

/-- Whether a node is text of the editor, with the marks that it can have there. -/
structure IsEditable [Surroundings] (item : MarkedNode) : Prop where
  text : ∃ content, content ≠ "" ∧ item.node = .text content
  marks : Mark.AreEditable item.marks

/-- The characters of a node with its marks. -/
def styled [Surroundings] (item : MarkedNode) : List StyledChar := item.node.styled item.marks

variable {items : List MarkedNode}

theorem IsEditable.dropOuter [Surroundings] {item : MarkedNode} (editable : item.IsEditable) :
    item.dropOuter.IsEditable :=
  ⟨editable.text, editable.marks.dropLast⟩

theorem IsEditable.styled_ne_nil [Surroundings] {item : MarkedNode} (editable : item.IsEditable) :
    item.styled ≠ [] := by
  obtain ⟨content, some, text⟩ := editable.text
  rw [styled, text, Node.styled]
  simpa [StyledChar.ofText] using some

/-- Without links, a line is read as text and other formatting. -/
theorem areMarkedText_nest [Surroundings] (texts : ∀ item ∈ items, ∃ content, item.node = .text content)
    (noLink : ∀ item ∈ items, ∀ mark ∈ item.marks, mark.kind ≠ .link) :
    Node.areMarkedText (nest items) = true := by
  induction items using nest_induction with
  | step items ih =>
    rw [Node.areMarkedText_iff, nest_eq]
    intro node member
    obtain ⟨run, cut, inside⟩ := List.mem_flatMap.1 member
    cases keyed : run.key with
    | none =>
      simp only [wrapped, keyed] at inside
      obtain ⟨item, here, rfl⟩ := List.mem_map.1 inside
      obtain ⟨content, text⟩ := texts item (Run.mem_of_mem cut here)
      rw [text]
      rfl
    | some mark =>
      simp only [wrapped, keyed, List.mem_singleton] at inside
      obtain ⟨item, here, key⟩ := Run.exists_key_of_mem cut
      have outer : mark ∈ item.marks := List.mem_of_getLast? (key.symm.trans keyed)
      have other := noLink item (Run.mem_of_mem cut here) mark outer
      have below : Node.areMarkedText (nest (run.items.map dropOuter)) = true := by
        refine ih run cut mark keyed ?_ ?_
        · intro item dropped
          obtain ⟨whole, here, rfl⟩ := List.mem_map.1 dropped
          exact texts whole (Run.mem_of_mem cut here)
        · intro item dropped mark carried
          obtain ⟨whole, here, rfl⟩ := List.mem_map.1 dropped
          exact noLink whole (Run.mem_of_mem cut here) mark (List.dropLast_subset _ carried)
      rw [inside, markElement_eq, Node.isMarkedText, MarkKind.ofTag?_tag]
      cases kind : mark.kind with
      | link => exact absurd kind other
      | _ => exact below

/-- Text without marks is folded into itself. -/
theorem styled_unmarked [Surroundings] (editable : ∀ item ∈ items, item.IsEditable)
    (unmarked : ∀ item ∈ items, item.marks = []) :
    (∀ child ∈ items.map node, child.IsTidy) ∧
      StyledChar.AllSame (Node.styledAll [] (items.map node)) (items.flatMap styled) := by
  constructor
  · intro child member
    obtain ⟨item, inside, rfl⟩ := List.mem_map.1 member
    obtain ⟨content, some, text⟩ := (editable item inside).text
    rw [text]
    exact .text some
  · rw [Node.styledAll_eq_flatMap, List.flatMap_map]
    refine forall₂_flatMap fun item member => ?_
    obtain ⟨content, some, text⟩ := (editable item member).text
    rw [styled, unmarked item member, text, Node.styled]
    exact StyledChar.ofText_same rfl rfl rfl

theorem texts_of_run [Surroundings] {run : Run (Option Mark) MarkedNode}
    (editable : ∀ item ∈ items, item.IsEditable) (cut : run ∈ Run.byOuterMark marks items) :
    ∀ item ∈ run.items.map dropOuter, ∃ content, item.node = .text content := by
  rw [List.forall_mem_map]
  intro item member
  obtain ⟨content, _, text⟩ := (editable item (Run.mem_of_mem cut member)).text
  exact ⟨content, text⟩

section InRun

variable [Surroundings] {run : Run (Option Mark) MarkedNode} {mark : Mark}
    (editable : ∀ item ∈ items, item.IsEditable)
  (cut : run ∈ Run.byOuterMark marks items) (keyed : run.key = some mark)

include editable cut keyed

/-- The texts in a run with a mark, each with an outermost mark that is the same. -/
theorem marks_of_mem {item : MarkedNode} (member : item ∈ run.items) :
    ∃ outer, item.marks = item.dropOuter.marks ++ [outer] ∧ outer.IsEditable ∧ mark.same outer = true := by
  have refl : ∀ item ∈ items, Mark.sameOption item.marks.getLast? item.marks.getLast? = true := fun item member =>
    Mark.sameOption_refl fun mark last =>
      ((editable item member).marks.each mark (List.mem_of_getLast? last)).wellFormed
  have same := Run.same_key_of_mem Mark.sameOption_trans refl cut member
  rw [keyed] at same
  cases last : item.marks.getLast? with
  | none =>
    rw [last] at same
    cases same
  | some outer =>
    rw [last] at same
    have whole : item.marks = item.dropOuter.marks ++ [outer] :=
      (List.dropLast_append_getLast? outer last).symm
    refine ⟨outer, whole, ?_, same⟩
    exact (editable item (Run.mem_of_mem cut member)).marks.each outer (List.mem_of_getLast? last)

theorem isEditable_of_key : mark.IsEditable := by
  obtain ⟨item, member, key⟩ := Run.exists_key_of_mem cut
  exact (editable item (Run.mem_of_mem cut member)).marks.each mark (List.mem_of_getLast? (key.symm.trans keyed))

/-- Code stands innermost, so that nothing is left of the marks without it. -/
theorem unmarked_of_code (code : mark.kind = .code) : ∀ item ∈ run.items.map dropOuter, item.marks = [] := by
  rw [List.forall_mem_map]
  intro item member
  obtain ⟨outer, whole, _, alike⟩ := marks_of_mem editable cut keyed member
  have codeFirst := (editable item (Run.mem_of_mem cut member)).marks.codeFirst outer
  have outerCode : outer.kind = .code := (Mark.same_iff.1 alike).1.symm.trans code
  rw [whole] at codeFirst
  cases inner : item.dropOuter.marks with
  | nil => rfl
  | cons first rest =>
    rw [inner, List.cons_append, List.tail_cons] at codeFirst
    exact absurd outerCode (codeFirst (List.mem_append_right _ List.mem_cons_self))

/-- Inside of a link there is no other. -/
theorem noLink_of_link (link : mark.kind = .link) :
    ∀ item ∈ run.items.map dropOuter, ∀ inner ∈ item.marks, inner.kind ≠ .link := by
  rw [List.forall_mem_map]
  intro item member inner carried innerLink
  obtain ⟨outer, whole, _, alike⟩ := marks_of_mem editable cut keyed member
  have oneLink := (editable item (Run.mem_of_mem cut member)).marks.oneLink
  have outerLink : outer.kind = .link := (Mark.same_iff.1 alike).1.symm.trans link
  have another : 0 < item.dropOuter.marks.countP (fun mark => mark.kind = .link) :=
    List.countP_pos_iff.2 ⟨inner, carried, decide_eq_true innerLink⟩
  rw [whole, List.countP_append, List.countP_singleton, if_pos (decide_eq_true outerLink)] at oneLink
  omega

/-- What stands in a run, as far as it holds of the content of an element. -/
theorem holds_of_run (tidy : ∀ node ∈ nest (run.items.map dropOuter), node.IsTidy)
    (same : StyledChar.AllSame (Node.styledAll [] (nest (run.items.map dropOuter)))
      ((run.items.map dropOuter).flatMap styled)) :
    mark.kind.Holds (nest (run.items.map dropOuter)) where
  formatted := Node.areFormattedText_iff.2 fun node member => (tidy node member).isFormattedText
  some := by
    obtain ⟨item, member⟩ := List.exists_mem_of_ne_nil _ (Run.ne_nil_of_mem cut)
    have char := (editable item (Run.mem_of_mem cut member)).dropOuter.styled_ne_nil
    intro none
    rw [none] at same
    have empty := List.flatMap_eq_nil_iff.1 (List.forall₂_nil_left_iff.1 same)
    exact char (empty _ (List.mem_map_of_mem member))
  code := by
    intro code
    rw [nest_eq, flatMap_wrapped_of_unmarked (unmarked_of_code editable cut keyed code), List.forall_mem_map]
    exact texts_of_run editable cut
  link link := areMarkedText_nest (texts_of_run editable cut) (noLink_of_link editable cut keyed link)

/-- The characters of a run in the element of its mark. -/
theorem styled_of_run (tidy : ∀ node ∈ nest (run.items.map dropOuter), node.IsTidy)
    (same : StyledChar.AllSame (Node.styledAll [] (nest (run.items.map dropOuter)))
      ((run.items.map dropOuter).flatMap styled)) :
    StyledChar.AllSame ((markElement mark (nest (run.items.map dropOuter))).styled [])
      (run.items.flatMap styled) := by
  have own := isEditable_of_key editable cut keyed
  have valid := Mark.reread_wellFormed own.wellFormed
  rw [styled_markElement own (holds_of_run editable cut keyed tidy same)]
  refine (same.under (by rw [List.all_cons, valid]; rfl)).trans ?_
  rw [List.flatMap_map, List.map_flatMap]
  refine forall₂_flatMap fun item member => ?_
  obtain ⟨outer, whole, outerEditable, alike⟩ := marks_of_mem editable cut keyed member
  obtain ⟨content, _, text⟩ := (editable item (Run.mem_of_mem cut member)).text
  have inner : ∀ mark ∈ item.dropOuter.marks, mark.wellFormed = true := fun mark member' =>
    ((editable item (Run.mem_of_mem cut member)).dropOuter.marks.each mark member').wellFormed
  have outside : mark.reread.same outer = true := Mark.same_trans own.reread alike
  have dropped : item.dropOuter.node = .text content := text
  rw [styled, styled, whole, dropped, text, Node.styled, Node.styled, StyledChar.ofText_under]
  exact StyledChar.ofText_same (Mark.sameList_concat inner outside) (Mark.concat_wellFormed inner valid)
    (Mark.concat_wellFormed inner outerEditable.wellFormed)

end InRun

/-- Folding marks into elements keeps every character and its marks. -/
theorem styled_nest [Surroundings] (editable : ∀ item ∈ items, item.IsEditable) :
    (∀ node ∈ nest items, node.IsTidy) ∧
      StyledChar.AllSame (Node.styledAll [] (nest items)) (items.flatMap styled) := by
  induction items using nest_induction with
  | step items ih =>
    have inside : ∀ run ∈ Run.byOuterMark marks items, (∀ node ∈ wrapped nest run, node.IsTidy) ∧
        StyledChar.AllSame (Node.styledAll [] (wrapped nest run)) (run.items.flatMap styled) := by
      intro run cut
      have here : ∀ item ∈ run.items, item.IsEditable := fun item member =>
        editable item (Run.mem_of_mem cut member)
      cases keyed : run.key with
      | none =>
        have unmarked : ∀ item ∈ run.items, item.marks = [] := by
          intro item member
          have outer := Run.key_of_mem sameOption_isSome cut member
          rw [keyed, Option.isSome_none, Option.isSome_eq_false_iff, Option.isNone_iff_eq_none,
            List.getLast?_eq_none_iff] at outer
          exact outer
        simp only [wrapped, keyed]
        exact styled_unmarked here unmarked
      | some mark =>
        have dropped : ∀ item ∈ run.items.map dropOuter, item.IsEditable := by
          intro item member
          obtain ⟨item, inside, rfl⟩ := List.mem_map.1 member
          exact (here item inside).dropOuter
        obtain ⟨tidy, same⟩ := ih run cut mark keyed dropped
        simp only [wrapped, keyed]
        constructor
        · rw [List.forall_mem_singleton]
          exact .marked (isEditable_of_key editable cut keyed) (holds_of_run editable cut keyed tidy same)
        · rw [Node.styledAll, Node.styledAll, List.append_nil]
          exact styled_of_run editable cut keyed tidy same
    have whole : items = (Run.byOuterMark marks items).flatMap Run.items := (Run.flatten_ofList _ _ items).symm
    constructor
    · rw [nest_eq]
      intro node member
      obtain ⟨run, cut, within⟩ := List.mem_flatMap.1 member
      exact (inside run cut).1 node within
    · rw [nest_eq, Node.styledAll_eq_flatMap, List.flatMap_assoc]
      nth_rewrite 2 [whole]
      rw [List.flatMap_assoc]
      refine forall₂_flatMap fun run cut => ?_
      rw [← Node.styledAll_eq_flatMap]
      exact (inside run cut).2

end MarkedNode

end ComponentMarkdown
