import ComponentMarkdown.Proofs.Doc.Bridging
import ComponentMarkdown.Proofs.Doc.Spelling
import Mathlib.Logic.Relation

namespace ComponentMarkdown.Node

/-- Somewhere in a line, formatting is joined over the blank that interrupts it. -/
inductive Join : List Node → List Node → Prop
  | inside (before : List Node) {left space right joined : Node} (behind : List Node) :
      joinOver? left space right = some joined →
      Join (before ++ left :: space :: right :: behind) (before ++ joined :: behind)

/-- Puts a node behind a line that is kept back to front, its last node first. The node goes into formatting of the
same kind, if nothing but a blank is between. -/
def pushJoining (done : List Node) (node : Node) : List Node :=
  match done with
  | space :: left :: before =>
    match joinOver? left space node with
    | some joined => joined :: before
    | none => node :: done
  | _ => node :: done

section Glue

theorem glued?_inAnyOrder : MergesInAnyOrder glued? fun _ => True where
  closed _ _ _ _ _ _ := trivial
  apart {x y z w} _ _ _ merged apart := by
    obtain ⟨content, next, rfl, rfl, rfl⟩ := glued?_eq_some merged
    cases w with
    | text => cases apart
    | element | comment => rfl
  joins {x y z w u} _ _ _ merged joins := by
    obtain ⟨content, next, rfl, rfl, rfl⟩ := glued?_eq_some merged
    obtain ⟨_, last, first, rfl, rfl⟩ := glued?_eq_some joins
    cases first
    exact ⟨text (content ++ next ++ last), by rw [glued?, String.append_assoc], rfl⟩

/-- Texts that are glued beforehand, in front or behind, are glued all the same. -/
theorem glueTexts_append_congr {nodes nodes' more more' : List Node} (front : glueTexts nodes = glueTexts nodes')
    (back : glueTexts more = glueTexts more') : glueTexts (nodes ++ more) = glueTexts (nodes' ++ more') := by
  simp only [glueTexts_eq] at front back ⊢
  have all (nodes : List Node) : ∀ node ∈ nodes, True := fun _ _ => trivial
  exact glued?_inAnyOrder.mergeNeighbours_append_congr (all _) (all _) (all _) front back

theorem glueTexts_glueTexts (nodes : List Node) : glueTexts (glueTexts nodes) = glueTexts nodes := by
  have all (nodes : List Node) : ∀ node ∈ nodes, True := fun _ _ => trivial
  have again := glued?_inAnyOrder.mergeNeighbours_merged_append (all nodes) (all [])
  rwa [List.append_nil, List.append_nil, ← glueTexts_eq, ← glueTexts_eq] at again

end Glue

section Over

variable {left space node joined : Node}

theorem joinOver?_of_same {tag : String} {attrs attrs' : Attrs} (joinable : tag ∈ joinableTags)
    (same : attrs.same attrs' = true) (children children' : List Node) :
    joinOver? (element tag attrs children) (text " ") (element tag attrs' children') =
      some (element tag attrs (glueTexts (children ++ text " " :: children'))) := by
  rw [joinOver?, if_pos ⟨rfl, same, joinable⟩]

theorem joinOver?_eq_none_iff {right : Node} :
    joinOver? left space right = none ↔ isInterrupted left space right = false := by
  refine ⟨fun apart => ?_, joinOver?_eq_none⟩
  by_contra interrupted
  rw [Bool.not_eq_false, isInterrupted_iff] at interrupted
  obtain ⟨_, _, children, _, children', joinable, same, rfl, rfl, rfl⟩ := interrupted
  rw [joinOver?_of_same joinable same] at apart
  cases apart

/-- What is joined has the attributes of the element in front. -/
theorem hasMap_joinOver? (fused : joinOver? left space node = some joined) (map : left.HasMap) : joined.HasMap := by
  obtain ⟨tag, attrs, children, _, _, _, _, rfl, _, _, rfl⟩ := joinOver?_eq_some fused
  rintro _ _ _ ⟨⟩
  exact map tag attrs children rfl

/-- Formatting that grows is the formatting it was for what stands in front of it. -/
theorem isInterrupted_joinOver? (fused : joinOver? left space node = some joined) (first blank : Node) :
    isInterrupted first blank joined = isInterrupted first blank left := by
  obtain ⟨tag, attrs, children, _, _, _, _, rfl, _, _, rfl⟩ := joinOver?_eq_some fused
  refine Bool.eq_iff_iff.2 ?_
  rw [isInterrupted_iff, isInterrupted_iff]
  constructor <;> rintro ⟨tag', own, inner, _, _, joinable, same, rfl, rfl, whole⟩ <;> cases whole
  · exact ⟨tag, own, inner, attrs, children, joinable, same, rfl, rfl, rfl⟩
  · exact ⟨tag, own, inner, attrs, _, joinable, same, rfl, rfl, rfl⟩

variable {space' right : Node} (fused : joinOver? left space node = some joined)

include fused

/-- What the last of two joined elements is not joined with, both are not joined with. -/
theorem joinOver?_apart (map : left.HasMap) (map' : node.HasMap) (apart : joinOver? node space' right = none) :
    joinOver? joined space' right = none := by
  cases again : joinOver? joined space' right with
  | none => rfl
  | some whole =>
    obtain ⟨tag, attrs, children, attrs', children', _, same, rfl, rfl, rfl, rfl⟩ := joinOver?_eq_some fused
    obtain ⟨_, _, _, attrs'', children'', joinable, same', equal, rfl, rfl, _⟩ := joinOver?_eq_some again
    cases equal
    have back := Attrs.same_symm (map tag attrs children rfl) (map' tag attrs' children' rfl) same
    rw [joinOver?_of_same joinable (Attrs.same_trans back same')] at apart
    cases apart

/-- Of three elements it does not matter which two are joined first. -/
theorem joinOver?_joins {inner : Node} (next : joinOver? node space' right = some inner) :
    ∃ whole, joinOver? left space inner = some whole ∧ joinOver? joined space' right = some whole := by
  obtain ⟨tag, attrs, children, attrs', children', joinable, same, rfl, rfl, rfl, rfl⟩ := joinOver?_eq_some fused
  obtain ⟨_, _, _, attrs'', children'', _, same', equal, rfl, rfl, rfl⟩ := joinOver?_eq_some next
  cases equal
  refine ⟨_, joinOver?_of_same joinable same _ _, ?_⟩
  rw [joinOver?_of_same joinable (Attrs.same_trans same same')]
  refine congrArg (fun content => some (element tag attrs content)) ?_
  calc glueTexts (glueTexts (children ++ text " " :: children') ++ text " " :: children'')
    _ = glueTexts ((children ++ text " " :: children') ++ text " " :: children'') :=
      glueTexts_append_congr (glueTexts_glueTexts _) rfl
    _ = glueTexts ((children ++ [text " "]) ++ (children' ++ text " " :: children'')) := by
      simp only [List.append_assoc, List.cons_append, List.nil_append]
    _ = glueTexts ((children ++ [text " "]) ++ glueTexts (children' ++ text " " :: children'')) :=
      glueTexts_append_congr rfl (glueTexts_glueTexts _).symm
    _ = glueTexts (children ++ text " " :: glueTexts (children' ++ text " " :: children'')) := by
      simp only [List.append_assoc, List.cons_append, List.nil_append]

/-- Joining two elements beforehand makes no difference in front of a line. -/
theorem consJoining_joined (map : left.HasMap) (map' : node.HasMap) (rest : List Node) :
    consJoining joined rest = consJoining left (space :: consJoining node rest) := by
  have first (behind : List Node) : consJoining left (space :: node :: behind) = joined :: behind := by
    rw [consJoining, fused]
  cases rest with
  | nil => exact (first []).symm
  | cons space' behind =>
    cases behind with
    | nil => exact (first [space']).symm
    | cons right more =>
      cases next : joinOver? node space' right with
      | none =>
        have apart := joinOver?_apart fused map map' next
        simp only [consJoining, next, apart, fused]
      | some inner =>
        obtain ⟨whole, before, behind⟩ := joinOver?_joins fused next
        simp only [consJoining, next, before, behind]

end Over

section Joins

variable {nodes next : List Node}

theorem Join.hasMap (step : Join nodes next) (maps : ∀ node ∈ nodes, node.HasMap) : ∀ node ∈ next, node.HasMap := by
  cases step with
  | inside before behind fused =>
    simp only [List.forall_mem_append, List.forall_mem_cons] at maps ⊢
    obtain ⟨others, left, _, _, later⟩ := maps
    exact ⟨others, hasMap_joinOver? fused left, later⟩

/-- A join somewhere in a line makes no difference to the line in which everything is joined. -/
theorem Join.joinSplitMarks_eq (step : Join nodes next) (maps : ∀ node ∈ nodes, node.HasMap) :
    joinSplitMarks nodes = joinSplitMarks next := by
  cases step with
  | @inside before left space right joined behind fused =>
    simp only [List.forall_mem_append, List.forall_mem_cons] at maps
    obtain ⟨_, map, _, map', _⟩ := maps
    have blank : joinSplitMarks (space :: right :: behind) = space :: joinSplitMarks (right :: behind) := by
      obtain ⟨_, _, _, _, _, _, _, _, rfl, _⟩ := joinOver?_eq_some fused
      exact joinSplitMarks_text " " _
    have here : joinSplitMarks (left :: space :: right :: behind) = joinSplitMarks (joined :: behind) := by
      rw [joinSplitMarks_cons, blank, joinSplitMarks_cons, joinSplitMarks_cons,
        consJoining_joined fused map map']
    rw [joinSplitMarks, List.foldr_append, ← joinSplitMarks, here, joinSplitMarks, ← List.foldr_append,
      ← joinSplitMarks]

/-- However a line is joined, what is left when there is nothing more to join is the same. -/
theorem joinSplitMarks_eq_of_joins {out : List Node} (joins : Relation.ReflTransGen Join nodes out)
    (maps : ∀ node ∈ nodes, node.HasMap) (kept : isUninterrupted out = true) : joinSplitMarks nodes = out := by
  induction joins using Relation.ReflTransGen.head_induction_on with
  | refl => exact joinSplitMarks_of_isUninterrupted kept
  | head step _ ih =>
    rw [step.joinSplitMarks_eq maps]
    exact ih (step.hasMap maps)

end Joins

section Pass

variable {done : List Node}

theorem pushJoining_cases (done : List Node) (node : Node) :
    (pushJoining done node = node :: done ∧
      ∀ space left before, done = space :: left :: before → isInterrupted left space node = false) ∨
    ∃ space left before joined, done = space :: left :: before ∧ joinOver? left space node = some joined ∧
      pushJoining done node = joined :: before := by
  match done with
  | [] => exact Or.inl ⟨rfl, by simp⟩
  | [only] => exact Or.inl ⟨rfl, by simp⟩
  | space :: left :: before =>
    cases fused : joinOver? left space node with
    | none =>
      refine Or.inl ⟨by simp only [pushJoining, fused], ?_⟩
      rintro _ _ _ ⟨⟩
      exact joinOver?_eq_none_iff.1 fused
    | some joined => exact Or.inr ⟨space, left, before, joined, rfl, fused, by simp only [pushJoining, fused]⟩

theorem isUninterrupted_iff {nodes : List Node} : isUninterrupted nodes = true ↔
    ∀ left space right, [left, space, right] <:+: nodes → isInterrupted left space right = false := by
  induction nodes with
  | nil => simp [isUninterrupted]
  | cons node rest ih =>
    rw [isUninterrupted_cons, ih]
    constructor
    · rintro ⟨first, below⟩ left space right inside
      rcases List.infix_cons_iff.1 inside with front | later
      · obtain ⟨rfl, more, whole⟩ := List.cons_prefix_cons.1 front
        exact first space right more whole.symm
      · exact below left space right later
    · intro each
      refine ⟨fun space right more same => each _ _ _ ⟨[], more, by rw [same]; rfl⟩,
        fun left space right inside => ?_⟩
      exact each _ _ _ (List.infix_cons_iff.2 (Or.inr inside))

theorem isUninterrupted_reverse_iff : isUninterrupted done.reverse = true ↔
    ∀ left space right, [right, space, left] <:+: done → isInterrupted left space right = false := by
  rw [isUninterrupted_iff]
  refine forall_congr' fun left => forall_congr' fun space => forall_congr' fun right => imp_congr_left ?_
  rw [← List.reverse_infix, List.reverse_reverse]
  rfl

/-- One step of the pass leaves nothing to join behind it, also where the last element grows. -/
theorem isUninterrupted_pushJoining (kept : isUninterrupted done.reverse = true) (node : Node) :
    isUninterrupted (pushJoining done node).reverse = true := by
  rw [isUninterrupted_reverse_iff] at kept ⊢
  intro left space right inside
  rcases pushJoining_cases done node with ⟨pushed, apart⟩ | ⟨blank, grown, before, joined, rfl, fused, pushed⟩
  · rw [pushed, List.infix_cons_iff] at inside
    rcases inside with front | later
    · obtain ⟨rfl, more, whole⟩ := List.cons_prefix_cons.1 front
      exact apart space left more whole.symm
    · exact kept left space right later
  · rw [pushed, List.infix_cons_iff] at inside
    rcases inside with front | later
    · -- The element that has grown stands behind the nodes that it stood behind before.
      obtain ⟨rfl, below⟩ := List.cons_prefix_cons.1 front
      rw [isInterrupted_joinOver? fused]
      refine kept left space grown (List.infix_cons_iff.2 (Or.inr (List.infix_cons_iff.2 (Or.inl ?_))))
      exact List.cons_prefix_cons.2 ⟨rfl, below⟩
    · refine kept left space right ?_
      exact List.infix_cons_iff.2 (Or.inr (List.infix_cons_iff.2 (Or.inr later)))

theorem isUninterrupted_foldl_pushJoining (kept : isUninterrupted done.reverse = true) (nodes : List Node) :
    isUninterrupted (nodes.foldl pushJoining done).reverse = true := by
  induction nodes generalizing done with
  | nil => exact kept
  | cons node rest ih => exact ih (isUninterrupted_pushJoining kept node)

/-- The pass does nothing but join. -/
theorem joins_foldl_pushJoining (nodes done : List Node) :
    Relation.ReflTransGen Join (done.reverse ++ nodes) (nodes.foldl pushJoining done).reverse := by
  induction nodes generalizing done with
  | nil =>
    rw [List.append_nil]
    exact .refl
  | cons node rest ih =>
    have later := ih (pushJoining done node)
    rcases pushJoining_cases done node with ⟨pushed, _⟩ | ⟨space, left, before, joined, rfl, fused, pushed⟩
    · rw [pushed, List.reverse_cons, List.append_assoc] at later
      rwa [List.foldl_cons, pushed]
    · have step := Join.inside before.reverse rest fused
      rw [pushed, List.reverse_cons, List.append_assoc] at later
      simp only [List.reverse_cons, List.append_assoc, List.cons_append, List.nil_append, List.foldl_cons, pushed]
      exact .head step later

/-- A line can as well be joined in one pass from its start. -/
theorem joinSplitMarks_eq_foldl {nodes : List Node} (maps : ∀ node ∈ nodes, node.HasMap) :
    joinSplitMarks nodes = (nodes.foldl pushJoining []).reverse :=
  joinSplitMarks_eq_of_joins (joins_foldl_pushJoining nodes []) maps (isUninterrupted_foldl_pushJoining rfl nodes)

end Pass

theorem textOf_joinSplitMarks (nodes : List Node) : textOf (joinSplitMarks nodes) = textOf nodes := by
  rw [← String.toList_inj, toList_textOf, toList_textOf,
    seesThroughFormatting_textContent.flatMap_joinSplitMarks]

/-- Joining formatting over blanks leaves the text as it is and nothing to join behind, it changes a line only where
formatting is interrupted, and so it changes nothing the second time. -/
theorem joinSplitMarks_exhaustive {nodes : List Node} (maps : ∀ node ∈ nodes, node.HasMap) :
    joinSplitMarks nodes = (nodes.foldl pushJoining []).reverse ∧
    textOf (joinSplitMarks nodes) = textOf nodes ∧
    isUninterrupted (joinSplitMarks nodes) = true ∧
    (joinSplitMarks nodes = nodes ↔ isUninterrupted nodes = true) ∧
    joinSplitMarks (joinSplitMarks nodes) = joinSplitMarks nodes := by
  have pass := joinSplitMarks_eq_foldl maps
  have kept : isUninterrupted (joinSplitMarks nodes) = true := by
    rw [pass]
    exact isUninterrupted_foldl_pushJoining rfl nodes
  have unchanged : joinSplitMarks nodes = nodes ↔ isUninterrupted nodes = true :=
    ⟨fun same => same ▸ kept, joinSplitMarks_of_isUninterrupted⟩
  exact ⟨pass, textOf_joinSplitMarks nodes, kept, unchanged, joinSplitMarks_of_isUninterrupted kept⟩

/-- A link in three parts, whose attributes come in two orders, and italics behind it. -/
theorem joinSplitMarks_exhaustive_link :
    let attrs : Attrs := [("href", .str "/a"), ("title", .str "b")]
    let turned : Attrs := [("title", .str "b"), ("href", .str "/a")]
    let nodes : List Node := [element "a" attrs [text "x"], text " ", element "a" turned [text "y"], text " ",
      element "a" attrs [element "em" [] [text "z"]], text " ", element "em" [] [text "w"]]
    (∀ node ∈ nodes, node.HasMap) ∧
      joinSplitMarks nodes = [element "a" attrs [text "x y ", element "em" [] [text "z"]], text " ",
        element "em" [] [text "w"]] ∧
      textOf (joinSplitMarks nodes) = textOf nodes ∧ isUninterrupted (joinSplitMarks nodes) = true ∧
      joinSplitMarks nodes ≠ nodes ∧ joinSplitMarks (joinSplitMarks nodes) = joinSplitMarks nodes := by
  intro attrs turned nodes
  have maps : ∀ node ∈ nodes, node.HasMap := by
    simp only [nodes, List.forall_mem_cons]
    refine ⟨?_, ?_, ?_, ?_, ?_, ?_, ?_, List.forall_mem_nil _⟩ <;> rintro _ _ _ ⟨⟩ <;> decide
  obtain ⟨-, text, kept, unchanged, again⟩ := joinSplitMarks_exhaustive maps
  have changed : joinSplitMarks nodes ≠ nodes := by
    rw [Ne, unchanged]
    decide
  exact ⟨maps, rfl, text, kept, changed, again⟩

end ComponentMarkdown.Node
