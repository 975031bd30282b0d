import ComponentMarkdown.Proofs.Doc.Line
import ComponentMarkdown.Proofs.Doc.Reading
import ComponentMarkdown.Proofs.Doc.WrittenAttrs

namespace ComponentMarkdown

theorem MarkedNode.coalesced?_under {mark : Mark} {x y : MarkedNode} (apart : coalesced? x y = none) :
    coalesced? (x.under [mark]) (y.under [mark]) = none := by
  cases merged : coalesced? (x.under [mark]) (y.under [mark]) with
  | none => rfl
  | some z =>
    obtain ⟨marks, node⟩ := x
    obtain ⟨marks', node'⟩ := y
    obtain ⟨_, content, _, next, first, second, same, _⟩ := coalesced?_eq_some merged
    cases first
    cases second
    have inner : Mark.sameList marks marks' = true := by
      rw [Mark.sameList_iff, ← List.forall₂_reverse_iff] at same ⊢
      rw [List.reverse_append, List.reverse_append] at same
      exact (List.forall₂_cons.1 same).2
    rw [coalesced?_of_same inner] at apart
    cases apart

theorem Mark.sameOption_getLast? {a b : List Mark} (same : sameList a b = true) :
    sameOption a.getLast? b.getLast? = true := by
  rw [sameList_iff, ← List.forall₂_reverse_iff] at same
  rw [List.getLast?_eq_head?_reverse, List.getLast?_eq_head?_reverse]
  generalize a.reverse = front at same ⊢
  generalize b.reverse = back at same ⊢
  cases same with
  | nil => rfl
  | cons first _ => exact first

namespace Node

mutual

/-- The leaves of a node in a line. -/
def leaves [Surroundings] : Node → List MarkedNode
  | .element tag attrs children =>
    match mark? (.element tag attrs children) with
    | some mark => (leavesOf children).map (MarkedNode.under [mark])
    | none => [⟨[], .element tag attrs children⟩]
  | node => [⟨[], node⟩]

/-- The leaves of a line. -/
def leavesOf [Surroundings] : List Node → List MarkedNode
  | [] => []
  | node :: rest => node.leaves ++ leavesOf rest

end

theorem leaves_of_unmarked [Surroundings] {node : Node} (plain : node.mark? = none) :
    node.leaves = [⟨[], node⟩] := by
  cases node with
  | text | comment => rw [leaves]; simp
  | element tag attrs children => rw [leaves, plain]

theorem leaves_of_marked [Surroundings] {tag : String} {attrs : Attrs} {children : List Node} {mark : Mark}
    (marked : (element tag attrs children).mark? = some mark) :
    (element tag attrs children).leaves = (leavesOf children).map (MarkedNode.under [mark]) := by
  rw [leaves, marked]

/-- The outermost mark of a leaf is that of the node that it is a leaf of. -/
theorem outer_of_mem_leaves [Surroundings] {node : Node} {item : MarkedNode} (member : item ∈ node.leaves) :
    item.marks.getLast? = node.mark? := by
  cases marked : node.mark? with
  | none =>
    rw [leaves_of_unmarked marked, List.mem_singleton] at member
    rw [member, List.getLast?_nil]
  | some mark =>
    cases node with
    | text | comment => cases marked
    | element tag attrs children =>
      rw [leaves_of_marked marked, List.mem_map] at member
      obtain ⟨inner, _, rfl⟩ := member
      rw [MarkedNode.under, List.getLast?_concat]

theorem dissolves_eq [Surroundings] (node : Node) : node.dissolves = node.mark?.isSome := by
  cases node with
  | text | comment => rfl
  | element tag attrs children =>
    rw [dissolves, mark?]
    cases MarkKind.ofTag? tag with
    | none => rfl
    | some kind =>
      cases kind with
      | link => by_cases text : areMarkedText children = true <;> simp [text]
      | _ => rfl

/-- An element of canonical formatting, with the mark that stands for it. -/
structure Formats [Surroundings] (tag : String) (attrs : Attrs) (children : List Node) (mark : Mark) : Prop where
  nonempty : children ≠ []
  below : areCanonicalInline true children = true
  wellFormed : mark.wellFormed = true
  restores : ∀ content, MarkedNode.markElement mark content = element tag attrs content

theorem areCanonicalInline_of_isSourceText [Surroundings] {children : List Node}
    (source : isSourceText children = true)
    (formatted : Bool) : children ≠ [] ∧ areCanonicalInline formatted children = true := by
  unfold isSourceText at source
  split at source
  · simpa [areCanonicalInline, isCanonicalInline] using source
  · exact absurd source (by simp)

theorem formats_of_canonical [Surroundings] {formatted : Bool} {tag : String} {attrs : Attrs} {children : List Node}
    {mark : Mark} (canonical : isCanonicalInline formatted (element tag attrs children) = true)
    (marked : (element tag attrs children).mark? = some mark) : Formats tag attrs children mark := by
  obtain ⟨named, text, kept⟩ := mark?_eq_some marked
  rw [isCanonicalInline, Bool.and_eq_true, TagKind.ofTag_eq_mark_iff.2 named] at canonical
  obtain ⟨valid, shape⟩ := canonical
  obtain ⟨kind, attrs'⟩ := mark
  subst named
  cases kind with
  | code =>
    obtain rfl : attrs' = attrs := kept
    rw [Bool.and_eq_true] at shape
    obtain ⟨nonempty, below⟩ := areCanonicalInline_of_isSourceText shape.2 true
    exact ⟨nonempty, below, valid, fun content => rfl⟩
  | link =>
    obtain rfl : attrs' = LinkPolicy.editorAttrs attrs := kept
    simp only [Bool.and_eq_true, Bool.not_eq_true', List.isEmpty_eq_false_iff, text, if_true] at shape
    obtain ⟨⟨plain, nonempty⟩, below⟩ := shape
    refine ⟨nonempty, below, LinkPolicy.editorAttrs_wellFormed valid, fun content => ?_⟩
    simp only [MarkedNode.markElement, if_true, Attrs.markupAttrs_editorAttrs_of_canonical plain]
  | bold | italic | strike =>
    obtain rfl : attrs' = attrs := kept
    simp only [Bool.and_eq_true, Bool.not_eq_true', List.isEmpty_eq_false_iff] at shape
    exact ⟨shape.1, shape.2, valid, fun content => rfl⟩

/-- What stands in an element that is more than formatting is a line. -/
theorem line_of_unmarked [Surroundings] {formatted : Bool} {tag : String} {attrs : Attrs} {children : List Node}
    (canonical : isCanonicalInline formatted (element tag attrs children) = true)
    (plain : (element tag attrs children).mark? = none) :
    (∀ level, TagKind.ofTag tag ≠ .heading level) ∧ isCanonicalLine children = true := by
  rw [isCanonicalInline, Bool.and_eq_true] at canonical
  obtain ⟨_, shape⟩ := canonical
  cases meaning : TagKind.ofTag tag with
  | mark kind =>
    obtain rfl := TagKind.ofTag_eq_mark_iff.1 meaning
    rw [mark?, MarkKind.ofTag?_tag] at plain
    cases kind with
    | link =>
      have mixed : areMarkedText children = false := by simpa using plain
      rw [meaning] at shape
      simp only [Bool.and_eq_true, mixed, Bool.false_eq_true, if_false] at shape
      obtain ⟨_, ⟨_, below⟩, kept⟩ := shape
      exact ⟨by simp, by rw [isCanonicalLine, below, kept]; rfl⟩
    | _ => cases plain
  | lineBreak | image | video | binding =>
    simp only [meaning, Bool.and_eq_true, List.isEmpty_iff] at shape
    refine ⟨by simp, ?_⟩
    rw [shape.2]
    rfl
  | span =>
    rw [meaning, Bool.and_eq_true, Bool.and_eq_true] at shape
    exact ⟨by simp, by rw [isCanonicalLine, shape.1.2, shape.2]; rfl⟩
  | component | template | html =>
    rw [meaning] at shape
    exact ⟨by simp, shape⟩
  | _ =>
    rw [meaning] at shape
    exact absurd shape (by simp)

/-- Elements of the same formatting in a row are read as one. -/
theorem runsInto_of_same [Surroundings] {formatted formatted' : Bool} {node next : Node} {mark mark' : Mark}
    (canonical : isCanonicalInline formatted node = true) (canonical' : isCanonicalInline formatted' next = true)
    (marked : node.mark? = some mark) (marked' : next.mark? = some mark') (same : mark.same mark' = true) :
    runsInto node next = true := by
  cases node with
  | text | comment => cases marked
  | element tag attrs children =>
    cases next with
    | text | comment => cases marked'
    | element tag' attrs' children' =>
      have formats := formats_of_canonical canonical marked
      have formats' := formats_of_canonical canonical' marked'
      obtain ⟨kinds, equal⟩ := Mark.same_iff.1 same
      have left := formats.restores []
      have right := formats'.restores []
      simp only [MarkedNode.markElement, element.injEq, and_true] at left right
      have tags : tag = tag' := by rw [← left.1, ← right.1, kinds]
      have alike : attrs.same attrs' = true := by
        rw [← left.2, ← right.2, ← kinds]
        split
        · exact LinkPolicy.markupAttrs_same formats.wellFormed formats'.wellFormed equal
        · exact equal
      subst tags
      simp only [runsInto, dissolves_eq, marked, marked', alike, decide_true, Bool.true_and, Option.isSome_some]

theorem areCanonicalInline_cons [Surroundings] {formatted : Bool} {node : Node} {rest : List Node} :
    areCanonicalInline formatted (node :: rest) = true ↔ isCanonicalInline formatted node = true ∧
      (∀ next ∈ rest.head?, runsInto node next = false) ∧ areCanonicalInline formatted rest = true := by
  rw [areCanonicalInline, Bool.and_eq_true, Bool.and_eq_true, and_assoc, Bool.not_eq_true', Option.any_eq_false]
  simp

theorem isCanonicalInline_of_mem [Surroundings] {formatted : Bool} {nodes : List Node}
    (canonical : areCanonicalInline formatted nodes = true)
    {node : Node} (member : node ∈ nodes) : isCanonicalInline formatted node = true := by
  induction nodes with
  | nil => cases member
  | cons first rest ih =>
    obtain ⟨here, _, later⟩ := areCanonicalInline_cons.1 canonical
    rcases List.mem_cons.1 member with rfl | below
    · exact here
    · exact ih later below

theorem leaves_ne_nil [Surroundings] {formatted : Bool} (node : Node)
    (canonical : isCanonicalInline formatted node = true) : node.leaves ≠ [] := by
  induction node using induction generalizing formatted with
  | text | comment => rw [leaves_of_unmarked rfl]; simp
  | element tag attrs children ih =>
    cases marked : (element tag attrs children).mark? with
    | none => rw [leaves_of_unmarked marked]; simp
    | some mark =>
      have formats := formats_of_canonical canonical marked
      rw [leaves_of_marked marked]
      cases children with
      | nil => exact absurd rfl formats.nonempty
      | cons child rest =>
        have first := ih child List.mem_cons_self (areCanonicalInline_cons.1 formats.below).1
        rw [leavesOf, List.map_append]
        exact fun empty => first (List.map_eq_nil_iff.1 (List.append_eq_nil_iff.1 empty).1)

/-- The first leaf of a line is a leaf of its first node. -/
theorem mem_leaves_of_head [Surroundings] {formatted : Bool} {nodes : List Node}
    (canonical : areCanonicalInline formatted nodes = true)
    {item : MarkedNode} (first : item ∈ (leavesOf nodes).head?) :
    ∃ node rest, nodes = node :: rest ∧ item ∈ node.leaves := by
  cases nodes with
  | nil => simp [leavesOf] at first
  | cons node rest =>
    refine ⟨node, rest, rfl, ?_⟩
    have nonempty := leaves_ne_nil node (areCanonicalInline_cons.1 canonical).1
    rw [leavesOf, List.head?_append_of_ne_nil _ nonempty] at first
    exact List.mem_of_mem_head? first

/-- Neighbours that do not run into each other have different outermost marks. -/
theorem outer_differ [Surroundings] {formatted : Bool} {node : Node} {rest : List Node} {mark : Mark}
    (canonical : areCanonicalInline formatted (node :: rest) = true) (marked : node.mark? = some mark)
    {item : MarkedNode} (first : item ∈ (leavesOf rest).head?) :
    Mark.sameOption (some mark) item.marks.getLast? = false := by
  obtain ⟨here, apart, later⟩ := areCanonicalInline_cons.1 canonical
  obtain ⟨next, rest, rfl, member⟩ := mem_leaves_of_head later first
  rw [outer_of_mem_leaves member]
  cases marked' : next.mark? with
  | none => rfl
  | some mark' =>
    cases same : mark.same mark' with
    | false => exact same
    | true =>
      have into := runsInto_of_same here (areCanonicalInline_cons.1 later).1 marked marked' same
      rw [apart next rfl] at into
      cases into

/-- The marks of a node's leaves can be folded whatever follows it. -/
def Folds [Surroundings] (node : Node) : Prop :=
  ∀ formatted, isCanonicalInline formatted node = true → ∀ rest : List MarkedNode,
    (∀ mark, node.mark? = some mark → ∀ item ∈ rest.head?,
      Mark.sameOption (some mark) item.marks.getLast? = false) →
    MarkedNode.nest (node.leaves ++ rest) = node :: MarkedNode.nest rest

theorem nest_leavesOf_of_folds [Surroundings] {formatted : Bool} {nodes : List Node}
    (folds : ∀ node ∈ nodes, node.Folds)
    (canonical : areCanonicalInline formatted nodes = true) : MarkedNode.nest (leavesOf nodes) = nodes := by
  induction nodes with
  | nil => exact MarkedNode.nest_nil
  | cons node rest ih =>
    obtain ⟨here, _, later⟩ := areCanonicalInline_cons.1 canonical
    obtain ⟨first, others⟩ := List.forall_mem_cons.1 folds
    have apart : ∀ mark, node.mark? = some mark → ∀ item ∈ (leavesOf rest).head?,
        Mark.sameOption (some mark) item.marks.getLast? = false :=
      fun mark marked item member => outer_differ canonical marked member
    rw [leavesOf, first formatted here (leavesOf rest) apart, ih others later]

theorem folds [Surroundings] (node : Node) : node.Folds := by
  induction node using induction with
  | text | comment =>
    intro formatted _ rest _
    rw [leaves_of_unmarked rfl]
    exact MarkedNode.nest_cons_unmarked _ rest
  | element tag attrs children ih =>
    intro formatted canonical rest apart
    cases marked : (element tag attrs children).mark? with
    | none =>
      rw [leaves_of_unmarked marked]
      exact MarkedNode.nest_cons_unmarked _ rest
    | some mark =>
      obtain ⟨_, below, valid, restores⟩ := formats_of_canonical canonical marked
      have inside := nest_leavesOf_of_folds ih below
      have nonempty : leavesOf children ≠ [] := by
        intro empty
        have whole := leaves_ne_nil _ canonical
        rw [leaves_of_marked marked, empty] at whole
        exact whole rfl
      rw [leaves_of_marked marked, MarkedNode.nest_append_under valid nonempty (apart mark marked),
        inside, restores]

/-- Folding the marks of its leaves gives canonical markup back. -/
theorem nest_leavesOf [Surroundings] {formatted : Bool} {nodes : List Node}
    (canonical : areCanonicalInline formatted nodes = true) : MarkedNode.nest (leavesOf nodes) = nodes :=
  nest_leavesOf_of_folds (fun node _ => node.folds) canonical

/-- No two leaves in a row can be joined. -/
def IsApart (items : List MarkedNode) : Prop := items.IsChain fun x y => MarkedNode.coalesced? x y = none

theorem coalesced?_of_neighbours [Surroundings] {formatted : Bool} {node next : Node} {rest : List Node}
    (canonical : areCanonicalInline formatted (node :: next :: rest) = true) {x y : MarkedNode}
    (left : x ∈ node.leaves) (right : y ∈ next.leaves) : MarkedNode.coalesced? x y = none := by
  obtain ⟨here, apart, later⟩ := areCanonicalInline_cons.1 canonical
  have differ := apart next rfl
  cases merged : MarkedNode.coalesced? x y with
  | none => rfl
  | some z =>
    obtain ⟨marks, content, marks', content', rfl, rfl, same, _⟩ := MarkedNode.coalesced?_eq_some merged
    have outer := Mark.sameOption_getLast? same
    have outerLeft := outer_of_mem_leaves left
    have outerRight := outer_of_mem_leaves right
    simp only at outerLeft outerRight
    rw [outerLeft, outerRight] at outer
    cases marked : node.mark? with
    | none =>
      cases marked' : next.mark? with
      | none =>
        rw [leaves_of_unmarked marked, List.mem_singleton] at left
        rw [leaves_of_unmarked marked', List.mem_singleton] at right
        cases left
        cases right
        cases differ
      | some mark' =>
        rw [marked, marked'] at outer
        cases outer
    | some mark =>
      cases marked' : next.mark? with
      | none =>
        rw [marked, marked'] at outer
        cases outer
      | some mark' =>
        rw [marked, marked'] at outer
        rw [runsInto_of_same here (areCanonicalInline_cons.1 later).1 marked marked' outer] at differ
        cases differ

theorem leavesOf_isApart_of_forall [Surroundings] {formatted : Bool} {nodes : List Node}
    (each : ∀ node ∈ nodes, isCanonicalInline formatted node = true → IsApart node.leaves)
    (canonical : areCanonicalInline formatted nodes = true) : IsApart (leavesOf nodes) := by
  induction nodes with
  | nil => exact List.isChain_nil
  | cons node rest ih =>
    obtain ⟨here, _, later⟩ := areCanonicalInline_cons.1 canonical
    obtain ⟨first, others⟩ := List.forall_mem_cons.1 each
    rw [leavesOf, IsApart, List.isChain_append]
    refine ⟨first here, ih others later, fun x left y right => ?_⟩
    obtain ⟨next, more, rfl, member⟩ := mem_leaves_of_head later right
    exact coalesced?_of_neighbours canonical (List.mem_of_getLast? left) member

theorem leaves_isApart [Surroundings] {formatted : Bool} (node : Node)
    (canonical : isCanonicalInline formatted node = true) : IsApart node.leaves := by
  induction node using induction generalizing formatted with
  | text | comment =>
    rw [leaves_of_unmarked rfl]
    exact List.isChain_singleton _
  | element tag attrs children ih =>
    cases marked : (element tag attrs children).mark? with
    | none =>
      rw [leaves_of_unmarked marked]
      exact List.isChain_singleton _
    | some mark =>
      have below := (formats_of_canonical canonical marked).below
      have inside := leavesOf_isApart_of_forall (fun child member valid => ih child member valid) below
      rw [leaves_of_marked marked, IsApart, List.isChain_map]
      exact inside.imp fun x y => MarkedNode.coalesced?_under

theorem leavesOf_isApart [Surroundings] {formatted : Bool} {nodes : List Node}
    (canonical : areCanonicalInline formatted nodes = true) : IsApart (leavesOf nodes) :=
  leavesOf_isApart_of_forall (fun node _ valid => leaves_isApart node valid) canonical

end Node

end ComponentMarkdown
