import ComponentMarkdown.Proofs.Doc.JoinedFormatting
import ComponentMarkdown.Proofs.Doc.TagKind

namespace ComponentMarkdown

namespace Node

/-- Whether the content of an element is a line of its own, in which formatting is joined. The content of formatting
is part of the line around it. -/
def holdsLine (tag : String) : Bool :=
  match MarkKind.ofTag? tag with
  | none | some .link => true
  | some _ => false

/-- Formatting is joined over a blank, among the nodes themselves if they are a line, or in a line inside of
them. -/
inductive JoinWithin : Bool → List Node → List Node → Prop
  | here {nodes next : List Node} : Join nodes next → JoinWithin true nodes next
  | inside {line : Bool} (before : List Node) (tag : String) (attrs : Attrs) {children next : List Node}
      (behind : List Node) : JoinWithin (holdsLine tag) children next →
      JoinWithin line (before ++ element tag attrs children :: behind) (before ++ element tag attrs next :: behind)

/-- What the nodes become by joining formatting, any number of times. -/
def Joins (line : Bool) : List Node → List Node → Prop := Relation.ReflTransGen (JoinWithin line)

theorem JoinWithin.between {line : Bool} {nodes next : List Node} (step : JoinWithin line nodes next)
    (front back : List Node) : JoinWithin line (front ++ nodes ++ back) (front ++ next ++ back) := by
  cases step with
  | here join =>
    cases join with
    | @inside before left space right joined behind fused =>
      have wider := Join.inside (front ++ before) (behind ++ back) fused
      simp only [List.append_assoc, List.cons_append] at wider ⊢
      exact .here wider
  | inside before tag attrs behind below =>
    have wider : JoinWithin line _ _ := .inside (front ++ before) tag attrs (behind ++ back) below
    simpa only [List.append_assoc, List.cons_append] using wider

namespace Joins

variable {line : Bool} {nodes next more more' : List Node}

theorem refl (nodes : List Node) : Joins line nodes nodes := Relation.ReflTransGen.refl

theorem trans {last : List Node} (first : Joins line nodes next) (second : Joins line next last) :
    Joins line nodes last := Relation.ReflTransGen.trans first second

theorem between (joins : Joins line nodes next) (front back : List Node) :
    Joins line (front ++ nodes ++ back) (front ++ next ++ back) :=
  Relation.ReflTransGen.lift (fun nodes => front ++ nodes ++ back) (fun _ _ step => step.between front back) _
    _ joins

theorem append (first : Joins line nodes next) (second : Joins line more more') :
    Joins line (nodes ++ more) (next ++ more') := by
  have front := first.between [] more
  have back := second.between next []
  rw [List.append_nil, List.append_nil] at back
  exact trans front back

theorem around {tag : String} (inside : Joins (holdsLine tag) nodes next) (attrs : Attrs) :
    Joins line [element tag attrs nodes] [element tag attrs next] :=
  Relation.ReflTransGen.lift (fun nodes => [element tag attrs nodes])
    (fun _ _ step => JoinWithin.inside [] tag attrs [] step) _ _ inside

/-- Joining the formatting of a line is a number of joins. -/
theorem joinSplitMarks (nodes : List Node) : Joins true nodes (joinSplitMarks nodes) := by
  induction nodes with
  | nil => exact .refl []
  | cons node rest ih =>
    have below := append (.refl [node]) ih
    rw [joinSplitMarks_cons]
    rw [List.singleton_append, List.singleton_append] at below
    generalize Node.joinSplitMarks rest = behind at below ⊢
    unfold consJoining
    split
    · split
      · rename_i joined fused
        exact below.tail (.here (.inside [] _ fused))
      · exact below
    · exact below

/-- An element that cannot be joined was there before, perhaps with more to join in it. -/
theorem exists_of_apart {tag : String} {attrs : Attrs} {content : List Node} (apart : tag ∉ joinableTags)
    (joins : Joins line nodes [element tag attrs content]) :
    ∃ children, nodes = [element tag attrs children] ∧ Joins (holdsLine tag) children content := by
  have alone : ∀ {before behind : List Node} {node other : Node}, before ++ node :: behind = [other] →
      before = [] ∧ node = other ∧ behind = [] := by
    intro before behind node other whole
    cases before <;> simp_all
  induction joins using Relation.ReflTransGen.head_induction_on with
  | refl => exact ⟨content, rfl, .refl content⟩
  | head step _ ih =>
    obtain ⟨children, rfl, joins⟩ := ih
    generalize whole : [element tag attrs children] = last at step
    cases step with
    | here join =>
      cases join with
      | inside before behind fused =>
        obtain ⟨tag', _, _, _, _, joinable, _, rfl, rfl, rfl, rfl⟩ := joinOver?_eq_some fused
        obtain ⟨-, same, -⟩ := alone whole.symm
        exact absurd ((element.inj same).1 ▸ joinable) apart
    | inside before tag' attrs' behind below =>
      obtain ⟨rfl, same, rfl⟩ := alone whole.symm
      obtain ⟨rfl, rfl, rfl⟩ := element.inj same
      exact ⟨_, rfl, .head below joins⟩

end Joins

/-- A node as it is, or an element in whose content formatting is joined. -/
inductive JoinedInside : Node → Node → Prop
  | refl (node : Node) : JoinedInside node node
  | element {tag : String} {children next : List Node} (attrs : Attrs) : Joins (holdsLine tag) children next →
      JoinedInside (.element tag attrs children) (.element tag attrs next)

theorem joins_of_forall₂ {line : Bool} {nodes next : List Node} (related : List.Forall₂ JoinedInside nodes next) :
    Joins line nodes next := by
  induction related with
  | nil => exact .refl []
  | @cons node node' _ _ first _ ih =>
    have here : Joins line [node] [node'] := by
      cases first with
      | refl => exact .refl _
      | element attrs inside => exact inside.around attrs
    exact here.append ih

end Node

namespace MarkedNode

open Node (JoinedInside)

variable {items items' : List MarkedNode}

theorem nest_joinedInside [Surroundings] (related : List.Forall₂ (Related JoinedInside) items items') :
    List.Forall₂ JoinedInside (nest items) (nest items') :=
  nest_related (fun _ _ _ content => .element _ (Node.joins_of_forall₂ content)) related

theorem coalesce_joinedInside (related : List.Forall₂ (Related JoinedInside) items items') :
    List.Forall₂ (Related JoinedInside) (coalesce items) (coalesce items') := by
  rw [coalesce_eq, coalesce_eq]
  refine forall₂_mergeNeighbours ?_ related
  rintro ⟨marks, x⟩ ⟨others, y⟩ ⟨marks', x'⟩ ⟨others', y'⟩ ⟨rfl, first⟩ ⟨rfl, second⟩
  dsimp only at first second ⊢
  -- Only texts are put together, and in a text nothing is joined.
  cases first with
  | refl =>
    cases second with
    | refl =>
      cases coalesced? ⟨marks, x⟩ ⟨others, y⟩ with
      | none => exact .none
      | some joined => exact .some ⟨rfl, .refl _⟩
    | element => cases x <;> exact .none
  | element => exact .none

/-- A line is joined from what its nodes are made of before anything is joined in them. -/
theorem joins_line [Surroundings] (related : List.Forall₂ (Related JoinedInside) items items') :
    Node.Joins true (nest (coalesce items)) (Node.joinSplitMarks (nest (coalesce items'))) :=
  (Node.joins_of_forall₂ (nest_joinedInside (coalesce_joinedInside related))).trans (.joinSplitMarks _)

end MarkedNode

end ComponentMarkdown
