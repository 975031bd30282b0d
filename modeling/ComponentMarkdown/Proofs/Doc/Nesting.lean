import ComponentMarkdown.Doc.Nesting
import ComponentMarkdown.Proofs.Doc.Mark
import ComponentMarkdown.Proofs.Doc.Runs
import ComponentMarkdown.Proofs.Markup.Tree
import Mathlib.Data.List.Basic

namespace ComponentMarkdown.MarkedNode

/-- The nodes of a run inside the element of its mark, if it has one. -/
def wrapped [Surroundings] (inner : List MarkedNode → List Node) (run : Run (Option Mark) MarkedNode) : List Node :=
  match run.key with
  | none => run.items.map node
  | some mark => [markElement mark (inner (run.items.map dropOuter))]

theorem nestWithin_succ [Surroundings] (depth : Nat) (items : List MarkedNode) :
    nestWithin (depth + 1) items = (Run.byOuterMark marks items).flatMap (wrapped (nestWithin depth)) :=
  rfl

theorem depth_le_iff {items : List MarkedNode} {bound : Nat} :
    depth items ≤ bound ↔ ∀ item ∈ items, item.marks.length ≤ bound := by
  unfold depth
  induction items with
  | nil => simp
  | cons item rest ih => simp only [List.map_cons, List.foldr_cons, Nat.max_le, ih, List.forall_mem_cons]

theorem sameOption_isSome (a b : Option Mark) (same : Mark.sameOption a b = true) : a.isSome = b.isSome := by
  cases a <;> cases b <;> simp_all [Mark.sameOption]

theorem flatMap_wrapped_of_unmarked [Surroundings] {items : List MarkedNode}
    (unmarked : ∀ item ∈ items, item.marks = []) (inner : List MarkedNode → List Node) :
    (Run.byOuterMark marks items).flatMap (wrapped inner) = items.map node := by
  have runs : ∀ run ∈ Run.byOuterMark marks items, wrapped inner run = run.items.map node := by
    intro run cut
    cases keyed : run.key with
    | none => simp only [wrapped, keyed]
    | some mark =>
      obtain ⟨item, member⟩ := List.exists_mem_of_ne_nil _ (Run.ne_nil_of_mem cut)
      have outer := Run.key_of_mem sameOption_isSome cut member
      rw [keyed, unmarked item (Run.mem_of_mem cut member)] at outer
      exact absurd outer (by simp)
  have whole : Run.flatten (Run.byOuterMark marks items) = items := Run.flatten_ofList _ _ items
  rw [List.flatMap_congr runs, ← List.map_flatMap]
  exact congrArg (List.map node) whole

/-- What stands in a run with a mark is nested less deeply without it. -/
theorem depth_dropOuter {items : List MarkedNode} {run : Run (Option Mark) MarkedNode}
    (cut : run ∈ Run.byOuterMark marks items) {mark : Mark} (marked : run.key = some mark) :
    depth (run.items.map dropOuter) < depth items := by
  have nonempty : ∀ item ∈ run.items, 0 < item.marks.length := by
    intro item member
    have outer := Run.key_of_mem sameOption_isSome cut member
    rw [marked, Option.isSome_some, List.getLast?_isSome] at outer
    exact List.length_pos_of_ne_nil outer
  have bounded : ∀ item ∈ run.items, item.marks.length ≤ depth items := fun item member =>
    depth_le_iff.1 (Nat.le_refl _) item (Run.mem_of_mem cut member)
  obtain ⟨first, atFirst⟩ := List.exists_mem_of_ne_nil _ (Run.ne_nil_of_mem cut)
  have positive := Nat.lt_of_lt_of_le (nonempty first atFirst) (bounded first atFirst)
  have shorter : depth (run.items.map dropOuter) ≤ depth items - 1 := by
    refine depth_le_iff.2 fun item member => ?_
    obtain ⟨whole, atWhole, rfl⟩ := List.mem_map.1 member
    have := bounded whole atWhole
    simp only [dropOuter, List.length_dropLast]
    omega
  omega

/-- Any bound on the number of marks gives the same nodes. -/
theorem nestWithin_congr [Surroundings] {items : List MarkedNode} {bound bound' : Nat}
    (within : depth items ≤ bound)
    (within' : depth items ≤ bound') : nestWithin bound items = nestWithin bound' items := by
  induction bound generalizing items bound' with
  | zero =>
    have unmarked : ∀ item ∈ items, item.marks = [] := fun item member =>
      List.eq_nil_of_length_eq_zero (Nat.le_zero.1 (depth_le_iff.1 within item member))
    cases bound' with
    | zero => rfl
    | succ bound' => rw [nestWithin_succ, flatMap_wrapped_of_unmarked unmarked, nestWithin]
  | succ bound ih =>
    cases bound' with
    | zero =>
      have unmarked : ∀ item ∈ items, item.marks = [] := fun item member =>
        List.eq_nil_of_length_eq_zero (Nat.le_zero.1 (depth_le_iff.1 within' item member))
      rw [nestWithin_succ, flatMap_wrapped_of_unmarked unmarked, nestWithin]
    | succ bound' =>
      rw [nestWithin_succ, nestWithin_succ]
      refine List.flatMap_congr fun run cut => ?_
      cases keyed : run.key with
      | none => simp only [wrapped, keyed]
      | some mark =>
        have smaller := depth_dropOuter cut keyed
        simp only [wrapped, keyed]
        rw [ih (by omega) (by omega : depth (run.items.map dropOuter) ≤ bound')]

theorem nest_eq [Surroundings] (items : List MarkedNode) :
    nest items = (Run.byOuterMark marks items).flatMap (wrapped nest) := by
  have deeper : nest items = nestWithin (depth items + 1) items :=
    nestWithin_congr (Nat.le_refl _) (Nat.le_succ _)
  rw [deeper, nestWithin_succ]
  refine List.flatMap_congr fun run cut => ?_
  cases keyed : run.key with
  | none => simp only [wrapped, keyed]
  | some mark =>
    simp only [wrapped, keyed, nest]
    rw [nestWithin_congr (Nat.le_of_lt (depth_dropOuter cut keyed)) (Nat.le_refl _)]

/-- What holds of a line as soon as it holds of what stands inside each of its marks holds of every
line. -/
theorem nest_induction {P : List MarkedNode → Prop}
    (step : ∀ items, (∀ run ∈ Run.byOuterMark marks items, ∀ mark, run.key = some mark →
      P (run.items.map dropOuter)) → P items) (items : List MarkedNode) : P items := by
  induction size : depth items using Nat.strongRecOn generalizing items with
  | ind n ih =>
    refine step items fun run cut mark keyed => ih _ ?_ _ rfl
    rw [← size]
    exact depth_dropOuter cut keyed

@[simp]
theorem nest_nil [Surroundings] : nest [] = [] := by
  rw [nest_eq]
  rfl

/-- A node without marks stands in front of what the rest becomes. -/
theorem nest_cons_unmarked [Surroundings] (front : Node) (items : List MarkedNode) :
    nest (⟨[], front⟩ :: items) = front :: nest items := by
  rw [nest_eq, nest_eq items]
  rcases Run.ofList_cons Mark.sameOption (fun item : MarkedNode => item.marks.getLast?) ⟨[], front⟩ items with
    ⟨run, runs, split, joins, joined⟩ | apart
  · have unmarked : run.key = none := by
      cases keyed : run.key with
      | none => rfl
      | some mark =>
        rw [keyed] at joins
        exact absurd joins (by simp [Mark.sameOption])
    simp only [Run.byOuterMark, split, joined, List.flatMap_cons, wrapped, unmarked, List.getLast?_nil,
      List.map_cons, List.cons_append]
  · simp only [Run.byOuterMark, apart, List.flatMap_cons, wrapped, List.getLast?_nil, List.map_cons, List.map_nil,
      List.cons_append, List.nil_append]

/-- The node inside further marks. -/
def under (outer : List Mark) (item : MarkedNode) : MarkedNode := { item with marks := item.marks ++ outer }

theorem dropOuter_under (mark : Mark) (item : MarkedNode) : dropOuter (under [mark] item) = item := by
  simp only [dropOuter, under, List.dropLast_concat]

theorem under_nil (item : MarkedNode) : under [] item = item := by
  rw [under, List.append_nil]

theorem under_comp_under (outer inner : List Mark) : under outer ∘ under inner = under (inner ++ outer) := by
  funext item
  simp only [Function.comp_apply, under, List.append_assoc]

/-- Nodes inside one mark, in front of a list that goes on outside of it, become its element. -/
theorem nest_append_under [Surroundings] {mark : Mark} (valid : mark.wellFormed = true)
    {group rest : List MarkedNode} (nonempty : group ≠ [])
    (apart : ∀ item ∈ rest.head?, Mark.sameOption (some mark) item.marks.getLast? = false) :
    nest (group.map (under [mark]) ++ rest) = markElement mark (nest group) :: nest rest := by
  have whole : Mark.sameOption (some mark) (some mark) = true := Mark.same_refl valid
  have cut : Run.byOuterMark marks (group.map (under [mark]) ++ rest) =
      ⟨some mark, group.map (under [mark])⟩ :: Run.byOuterMark marks rest :=
    Run.ofList_append whole (by simpa using nonempty) (by simp [under]) apart
  have inside : (group.map (under [mark])).map dropOuter = group := by
    rw [List.map_map]
    exact (List.map_congr_left fun item _ => dropOuter_under mark item).trans (List.map_id group)
  rw [nest_eq, cut, List.flatMap_cons, wrapped, inside, nest_eq rest]
  rfl

/-- The same marks on nodes that are related. -/
def Related (R : Node → Node → Prop) (item item' : MarkedNode) : Prop := item.marks = item'.marks ∧
    R item.node item'.node

theorem map_dropOuter_related {R : Node → Node → Prop} {items items' : List MarkedNode}
    (related : List.Forall₂ (Related R) items items') :
    List.Forall₂ (Related R) (items.map dropOuter) (items'.map dropOuter) :=
  List.forall₂_map_left_iff.2 (List.forall₂_map_right_iff.2
    (related.imp fun _ _ both => ⟨congrArg List.dropLast both.1, both.2⟩))

section Related

variable [Surroundings] {R : Node → Node → Prop} (element : ∀ (mark : Mark) {children children' : List Node},
  List.Forall₂ R children children' → R (markElement mark children) (markElement mark children'))

include element

theorem wrapped_related {run run' : Run (Option Mark) MarkedNode} (keys : run.key = run'.key)
    (related : List.Forall₂ (Related R) run.items run'.items)
    (inner : ∀ mark, run.key = some mark →
      List.Forall₂ R (nest (run.items.map dropOuter)) (nest (run'.items.map dropOuter))) :
    List.Forall₂ R (wrapped nest run) (wrapped nest run') := by
  cases keyed : run.key with
  | none =>
    simp only [wrapped, keyed, ← keys]
    exact List.forall₂_map_left_iff.2 (List.forall₂_map_right_iff.2 (related.imp fun _ _ both => both.2))
  | some mark =>
    simp only [wrapped, keyed, ← keys]
    exact .cons (element mark (inner mark keyed)) .nil

/-- Nodes that are related become nodes that are related, if elements with related content are. -/
theorem nest_related {items items' : List MarkedNode} (related : List.Forall₂ (Related R) items items') :
    List.Forall₂ R (nest items) (nest items') := by
  induction items using nest_induction generalizing items' with
  | step items ih =>
    have cut : List.Forall₂ (fun run run' => run.key = run'.key ∧ List.Forall₂ (Related R) run.items run'.items)
        (Run.byOuterMark marks items) (Run.byOuterMark marks items') :=
      Run.ofList_forall₂ (fun x y both => congrArg List.getLast? both.1) related
    rw [nest_eq, nest_eq items']
    generalize Run.byOuterMark marks items' = runs' at cut
    generalize Run.byOuterMark marks items = runs at cut ih
    induction cut with
    | nil => exact .nil
    | @cons run run' _ _ first _ later =>
      obtain ⟨keys, inside⟩ := first
      rw [List.forall_mem_cons] at ih
      rw [List.flatMap_cons, List.flatMap_cons]
      refine List.rel_append (wrapped_related element keys inside fun mark keyed => ?_) (later ih.2)
      exact ih.1 mark keyed (map_dropOuter_related inside)

end Related

/-- The same marks on nodes that are alike. -/
def Alike : MarkedNode → MarkedNode → Prop := Related Node.Alike

/-- Nodes that are alike become nodes that are alike. -/
theorem nest_alike [Surroundings] {items items' : List MarkedNode} (alike : List.Forall₂ Alike items items') :
    List.Forall₂ Node.Alike (nest items) (nest items') :=
  nest_related (fun _ _ _ content => .element (.refl _) content) alike

end ComponentMarkdown.MarkedNode
