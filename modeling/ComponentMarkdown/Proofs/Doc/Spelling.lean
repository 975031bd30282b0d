import ComponentMarkdown.Proofs.Doc.Leaves
import ComponentMarkdown.Proofs.Doc.Reading
import ComponentMarkdown.Proofs.Shortcode

namespace ComponentMarkdown

namespace Shortcode

/-- The node of a piece of text. -/
def Piece.docNode (marks : List Mark) : Piece → DocNode
  | plain text => .text (String.ofList text) marks
  | emoji name glyph => .emoji name glyph marks

theorem Piece.ofList_source_emoji (name glyph : String) :
    String.ofList (Piece.emoji name glyph).source = ":" ++ name ++ ":" := by
  rw [← String.toList_inj, String.toList_ofList, String.toList_append, String.toList_append]
  rfl

theorem Piece.inline_docNode [Surroundings] (marks : List Mark) (piece : Piece) :
    (piece.docNode marks).writing.inline = pure [⟨marks, .text (String.ofList piece.source)⟩] := by
  rw [DocNode.writing_inline]
  cases piece with
  | plain text => rfl
  | emoji name glyph =>
    rw [Piece.ofList_source_emoji]
    rfl

theorem join_sources (pieces : List Piece) :
    String.join (pieces.map fun piece => String.ofList piece.source) =
      String.ofList (pieces.flatMap Piece.source) := by
  induction pieces with
  | nil => rfl
  | cons piece rest ih => rw [List.map_cons, String.join_cons, ih, List.flatMap_cons, String.ofList_append]

end Shortcode

namespace Writing

theorem marked_append [Surroundings] (nodes more : List DocNode) :
    marked ((nodes ++ more).map DocNode.writing) = do
      return (← marked (nodes.map DocNode.writing)) ++ (← marked (more.map DocNode.writing)) := by
  induction nodes with
  | nil => simp only [List.nil_append, List.map_nil, marked, pure_bind, bind_pure]
  | cons node rest ih =>
    simp only [List.cons_append, List.map_cons, marked, ih, bind_assoc, pure_bind, List.append_assoc]

/-- Nodes that are one item each. -/
theorem marked_map [Surroundings] {α : Type} {items : List α} {node : α → DocNode} {written : α → MarkedNode}
    (each : ∀ item ∈ items, (node item).writing.inline = pure [written item]) :
    marked ((items.map node).map DocNode.writing) = pure (items.map written) := by
  induction items with
  | nil => rfl
  | cons item rest ih =>
    obtain ⟨here, below⟩ := List.forall_mem_cons.1 each
    simp only [List.map_cons, marked, here, pure_bind]
    rw [ih below]
    rfl

end Writing

namespace Reading

theorem textNodes_true [Surroundings] {content : String} (nonempty : content ≠ "") (marks : List Mark) :
    textNodes true content marks = (Shortcode.split content.toList).map (Shortcode.Piece.docNode marks) := by
  rw [textNodes, if_neg nonempty]
  rfl

theorem textNodes_false [Surroundings] {content : String} (nonempty : content ≠ "") (marks : List Mark) :
    textNodes false content marks = [.text content marks] := by
  rw [textNodes, if_neg nonempty]
  rfl

/-- The nodes of a text are written as texts with its marks, which make up the text. -/
theorem marked_textNodes [Surroundings] (emoji : Bool) {content : String} (nonempty : content ≠ "")
    (marks : List Mark) : ∃ texts, texts ≠ [] ∧ String.join texts = content ∧
      Writing.marked ((textNodes emoji content marks).map DocNode.writing) =
        pure (texts.map fun s => ⟨marks, .text s⟩) := by
  cases emoji with
  | false =>
    refine ⟨[content], by simp, by rw [String.join_cons, String.join_nil, String.append_empty], ?_⟩
    rw [textNodes_false nonempty]
    rfl
  | true =>
    have chars : content.toList ≠ [] := fun empty => nonempty (String.toList_eq_nil_iff.1 empty)
    refine ⟨(Shortcode.split content.toList).map fun piece => String.ofList piece.source, ?_, ?_, ?_⟩
    · simpa using Shortcode.split_ne_nil chars
    · rw [Shortcode.join_sources, Shortcode.split_source, String.ofList_toList]
    · rw [textNodes_true nonempty, Writing.marked_map fun piece _ => piece.inline_docNode marks, List.map_map]
      rfl

theorem marks_textNodes [Surroundings] {emoji : Bool} {content : String} (nonempty : content ≠ "")
    {marks : List Mark} {node : DocNode} (member : node ∈ textNodes emoji content marks) : node.marks = marks := by
  cases emoji with
  | false =>
    rw [textNodes_false nonempty, List.mem_singleton] at member
    rw [member]
    rfl
  | true =>
    rw [textNodes_true nonempty, List.mem_map] at member
    obtain ⟨piece, _, rfl⟩ := member
    cases piece <;> rfl

end Reading

/-- Nodes of the document that are written as the leaves of a line, up to the order of attributes and
texts that are still apart. -/
structure Spells [Surroundings] (nodes : List DocNode) (leaves : List MarkedNode) : Prop where
  wellMarked : ∀ node ∈ nodes, node.isWellMarked = true
  written : ∃ items whole, Writing.marked (nodes.map DocNode.writing) = pure items ∧
    MarkedNode.coalesce items = MarkedNode.coalesce whole ∧ List.Forall₂ MarkedNode.Alike whole leaves ∧
    (∀ item ∈ items, item.wellFormed = true) ∧ ∀ item ∈ whole, item.wellFormed = true

namespace Spells

theorem nil [Surroundings] : Spells [] [] :=
  ⟨by simp, [], [], rfl, rfl, .nil, by simp, by simp⟩

theorem append [Surroundings] {nodes more : List DocNode} {leaves others : List MarkedNode}
    (first : Spells nodes leaves) (second : Spells more others) : Spells (nodes ++ more) (leaves ++ others) := by
  obtain ⟨valid, items, whole, written, joined, alike, ok, ok'⟩ := first
  obtain ⟨valid', items', whole', written', joined', alike', okMore, okMore'⟩ := second
  refine ⟨List.forall_mem_append.2 ⟨valid, valid'⟩, items ++ items', whole ++ whole', ?_, ?_,
    List.rel_append alike alike', List.forall_mem_append.2 ⟨ok, okMore⟩, List.forall_mem_append.2 ⟨ok', okMore'⟩⟩
  · rw [Writing.marked_append, written, written', pure_bind, pure_bind]
  · rw [MarkedNode.coalesce_eq, MarkedNode.coalesce_eq] at joined joined' ⊢
    exact MarkedNode.coalesced?_inAnyOrder.mergeNeighbours_append_congr ok ok' okMore joined joined'

/-- A node that is one leaf. -/
theorem single [Surroundings] {node : DocNode} {item leaf : MarkedNode} (marks : node.marks = leaf.marks)
    (valid : leaf.wellFormed = true) (written : node.writing.inline = pure [item]) (alike : item.Alike leaf) :
    Spells [node] [leaf] := by
  have ok : item.wellFormed = true := by
    rw [MarkedNode.wellFormed, alike.1]
    exact valid
  refine ⟨?_, [item], [item], ?_, rfl, .cons alike .nil, by simpa using ok, by simpa using ok⟩
  · rw [List.forall_mem_singleton, DocNode.isWellMarked, marks]
    exact valid
  · rw [List.map_singleton, Writing.marked, written]
    rfl

theorem text [Surroundings] (emoji : Bool) {content : String} (nonempty : content ≠ "") {marks : List Mark}
    (valid : marks.all Mark.wellFormed = true) :
    Spells (Reading.textNodes emoji content marks) [⟨marks, .text content⟩] := by
  obtain ⟨texts, some, joined, written⟩ := Reading.marked_textNodes emoji nonempty marks
  refine ⟨fun node member => ?_, _, [⟨marks, .text content⟩], written, ?_, .cons ⟨rfl, Node.Alike.refl _⟩ .nil, ?_,
    List.forall_mem_singleton.2 valid⟩
  · rw [DocNode.isWellMarked, Reading.marks_textNodes nonempty member]
    exact valid
  · rw [MarkedNode.coalesce_texts valid some, joined]
    rfl
  · intro item member
    obtain ⟨s, _, rfl⟩ := List.mem_map.1 member
    exact valid

end Spells

namespace Node

theorem isInterrupted_iff {left space right : Node} :
    isInterrupted left space right = true ↔ ∃ tag attrs children attrs' children', tag ∈ joinableTags ∧
      attrs.same attrs' = true ∧ left = element tag attrs children ∧ space = text " " ∧
      right = element tag attrs' children' := by
  constructor
  · intro interrupted
    unfold isInterrupted at interrupted
    split at interrupted
    · rename_i tag attrs children tag' attrs' children'
      simp only [Bool.and_eq_true, decide_eq_true_eq] at interrupted
      obtain ⟨⟨rfl, same⟩, joinable⟩ := interrupted
      exact ⟨tag, attrs, children, attrs', children', joinable, same, rfl, rfl, rfl⟩
    · exact absurd interrupted (by simp)
  · rintro ⟨tag, attrs, children, attrs', children', joinable, same, rfl, rfl, rfl⟩
    simp [isInterrupted, same, joinable]

theorem isUninterrupted_cons {node : Node} {rest : List Node} : isUninterrupted (node :: rest) = true ↔
    (∀ space right more, rest = space :: right :: more → isInterrupted node space right = false) ∧
      isUninterrupted rest = true := by
  match rest with
  | [] => simp [isUninterrupted]
  | [only] => simp [isUninterrupted]
  | space :: right :: more =>
    rw [isUninterrupted, Bool.and_eq_true, Bool.not_eq_true']
    refine and_congr_left fun _ => ⟨?_, fun each => each _ _ _ rfl⟩
    rintro apart _ _ _ ⟨⟩
    exact apart

theorem joinOver?_eq_none {left space right : Node} (kept : isInterrupted left space right = false) :
    joinOver? left space right = none := by
  cases fused : joinOver? left space right with
  | none => rfl
  | some joined =>
    obtain ⟨tag, attrs, children, attrs', children', joinable, same, left, space, right, _⟩ :=
      joinOver?_eq_some fused
    have interrupted :=
      isInterrupted_iff.2 ⟨tag, attrs, children, attrs', children', joinable, same, left, space, right⟩
    rw [interrupted] at kept
    cases kept

/-- Formatting that no blank interrupts is not joined. -/
theorem joinSplitMarks_of_isUninterrupted {nodes : List Node} (kept : isUninterrupted nodes = true) :
    joinSplitMarks nodes = nodes := by
  induction nodes with
  | nil => rfl
  | cons node rest ih =>
    rw [joinSplitMarks, List.foldr_cons, ← joinSplitMarks]
    match rest with
    | [] => rfl
    | [only] =>
      rw [ih rfl]
      rfl
    | space :: right :: more =>
      rw [isUninterrupted, Bool.and_eq_true, Bool.not_eq_true'] at kept
      rw [ih kept.2, consJoining, joinOver?_eq_none kept.1]

/-- The attributes of an element, if the node is one, are a map. -/
def HasMap (node : Node) : Prop := ∀ tag attrs children, node = element tag attrs children → attrs.wellFormed = true

theorem hasMap_of_canonical [Surroundings] {formatted : Bool} {node : Node}
    (canonical : isCanonicalInline formatted node = true) : node.HasMap := by
  rintro tag attrs children rfl
  rw [isCanonicalInline, Bool.and_eq_true] at canonical
  exact canonical.1

theorem isInterrupted_of_alike {left space right left' space' right' : Node} (first : left.Alike left')
    (second : space.Alike space') (third : right.Alike right') (valid : left'.HasMap) (valid' : right'.HasMap)
    (interrupted : isInterrupted left space right = true) : isInterrupted left' space' right' = true := by
  obtain ⟨tag, attrs, children, attrs', children', joinable, same, rfl, rfl, rfl⟩ := isInterrupted_iff.1 interrupted
  obtain ⟨attrs₁, children₁, rfl, perm, _⟩ := alike_element_iff.1 first
  obtain ⟨attrs₂, children₂, rfl, perm', _⟩ := alike_element_iff.1 third
  obtain rfl := alike_text_iff.1 second
  refine isInterrupted_iff.2 ⟨tag, attrs₁, children₁, attrs₂, children₂, joinable, ?_, rfl, rfl, rfl⟩
  rw [Attrs.same_congr (valid _ _ _ rfl) (valid' _ _ _ rfl) perm.symm perm'.symm]
  exact same

theorem isUninterrupted_of_alike {nodes nodes' : List Node} (alike : List.Forall₂ Alike nodes nodes')
    (valid : ∀ node ∈ nodes', node.HasMap) (kept : isUninterrupted nodes' = true) :
    isUninterrupted nodes = true := by
  induction alike with
  | nil => rfl
  | @cons left left' rest rest' first below ih =>
    obtain ⟨here, later⟩ := List.forall_mem_cons.1 valid
    cases below with
    | nil => rfl
    | @cons space space' rest rest' second below =>
      cases below with
      | nil => rfl
      | @cons right right' rest rest' third below =>
        rw [isUninterrupted, Bool.and_eq_true, Bool.not_eq_true'] at kept ⊢
        refine ⟨?_, ih later kept.2⟩
        by_contra interrupted
        rw [Bool.not_eq_false] at interrupted
        have there := later right' (List.mem_cons_of_mem _ List.mem_cons_self)
        rw [isInterrupted_of_alike first second third here there interrupted] at kept
        exact absurd kept.1 (by simp)

end Node

/-- Leaves that are apart stay so up to the order of attributes. -/
theorem MarkedNode.coalesce_of_alike {whole leaves : List MarkedNode} (alike : List.Forall₂ Alike whole leaves)
    (apart : Node.IsApart leaves) : coalesce whole = whole := by
  rw [coalesce_eq]
  refine mergeNeighbours_of_isChain ?_
  induction alike with
  | nil => exact List.isChain_nil
  | @cons x x' rest rest' first below ih =>
    cases below with
    | nil => exact List.isChain_singleton _
    | @cons y y' rest rest' second below =>
      rw [Node.IsApart, List.isChain_cons_cons] at apart
      refine List.isChain_cons_cons.2 ⟨?_, ih apart.2⟩
      cases merged : coalesced? x y with
      | none => rfl
      | some z =>
        obtain ⟨marks, content, marks', next, rfl, rfl, same, _⟩ := coalesced?_eq_some merged
        obtain ⟨marks₁, node⟩ := x'
        obtain ⟨marks₂, node'⟩ := y'
        obtain ⟨rfl, left⟩ := first
        obtain ⟨rfl, right⟩ := second
        obtain rfl := Node.alike_text_iff.1 left
        obtain rfl := Node.alike_text_iff.1 right
        rw [coalesced?_of_same same] at apart
        exact absurd apart.1 (by simp)

/-- A line of the document that spells a canonical line of markup is written as that line. -/
theorem Spells.line [Surroundings] {docs : List DocNode} {nodes : List Node}
    (spells : Spells docs (Node.leavesOf nodes)) (canonical : Node.isCanonicalLine nodes = true) :
    ∃ content, Writing.line ((Reading.joinTexts docs).map DocNode.writing) = pure content ∧
      List.Forall₂ Node.Alike content nodes := by
  rw [Node.isCanonicalLine, Bool.and_eq_true] at canonical
  obtain ⟨canonical, kept⟩ := canonical
  obtain ⟨valid, items, whole, written, joined, alike, _, _⟩ := spells
  rw [MarkedNode.coalesce_of_alike alike (Node.leavesOf_isApart canonical)] at joined
  have content := MarkedNode.nest_alike alike
  rw [Node.nest_leavesOf canonical] at content
  have maps : ∀ node ∈ nodes, node.HasMap := fun node member =>
    Node.hasMap_of_canonical (Node.isCanonicalInline_of_mem canonical member)
  refine ⟨MarkedNode.nest whole, ?_, content⟩
  rw [DocNode.line_joinTexts valid, Writing.line, written, pure_bind, joined,
    Node.joinSplitMarks_of_isUninterrupted (Node.isUninterrupted_of_alike content maps kept)]

end ComponentMarkdown
