import Mathlib.Data.List.Basic
import Mathlib.Data.List.Chain

namespace ComponentMarkdown

variable {α β : Type}

/-- Puts an item in front of a list, merged with the first item of the list if the rule allows it. -/
def consMerging (merge : α → α → Option α) (x : α) : List α → List α
  | [] => [x]
  | y :: rest =>
    match merge x y with
    | some z => z :: rest
    | none => x :: y :: rest

/-- Merges neighbours. -/
def mergeNeighbours (merge : α → α → Option α) (items : List α) : List α :=
  items.foldr (consMerging merge) []

variable {merge : α → α → Option α}

theorem consMerging_nil (x : α) : consMerging merge x [] = [x] := rfl

theorem consMerging_of_some {x y z : α} (merged : merge x y = some z) (rest : List α) :
    consMerging merge x (y :: rest) = z :: rest := by
  simp only [consMerging, merged]

theorem consMerging_of_none {x y : α} (apart : merge x y = none) (rest : List α) :
    consMerging merge x (y :: rest) = x :: y :: rest := by
  simp only [consMerging, apart]

theorem mergeNeighbours_cons (x : α) (rest : List α) :
    mergeNeighbours merge (x :: rest) = consMerging merge x (mergeNeighbours merge rest) := rfl

theorem mergeNeighbours_map {f : α → β} {merge' : β → β → Option β}
    (rule : ∀ x y, merge' (f x) (f y) = (merge x y).map f) (items : List α) :
    mergeNeighbours merge' (items.map f) = (mergeNeighbours merge items).map f := by
  induction items with
  | nil => rfl
  | cons x rest ih =>
    rw [List.map_cons, mergeNeighbours_cons, mergeNeighbours_cons, ih]
    cases mergeNeighbours merge rest with
    | nil => rfl
    | cons y tail =>
      cases merged : merge x y with
      | none =>
        rw [consMerging_of_none merged, List.map_cons, List.map_cons, List.map_cons,
          consMerging_of_none (by rw [rule, merged, Option.map_none])]
      | some z =>
        rw [consMerging_of_some merged, List.map_cons, List.map_cons,
          consMerging_of_some (by rw [rule, merged, Option.map_some])]

/-- What a merged item is made of is what its parts are made of, so nothing is lost. -/
theorem flatMap_mergeNeighbours {parts : α → List β}
    (whole : ∀ x y z, merge x y = some z → parts z = parts x ++ parts y) (items : List α) :
    (mergeNeighbours merge items).flatMap parts = items.flatMap parts := by
  induction items with
  | nil => rfl
  | cons x rest ih =>
    rw [mergeNeighbours_cons, List.flatMap_cons, ← ih]
    cases mergeNeighbours merge rest with
    | nil => simp only [consMerging_nil, List.flatMap_cons, List.flatMap_nil]
    | cons y tail =>
      cases rule : merge x y with
      | none => simp only [consMerging_of_none rule, List.flatMap_cons]
      | some z =>
        simp only [consMerging_of_some rule, List.flatMap_cons, whole x y z rule, List.append_assoc]

/-- Where no neighbours can be merged, nothing changes. -/
theorem mergeNeighbours_of_isChain {items : List α} (apart : items.IsChain fun x y => merge x y = none) :
    mergeNeighbours merge items = items := by
  induction items with
  | nil => rfl
  | cons x rest ih =>
    rw [mergeNeighbours_cons, ih apart.tail]
    cases rest with
    | nil => rfl
    | cons y tail => exact consMerging_of_none (List.isChain_cons_cons.1 apart).1 tail

section Validity

variable {valid : α → Prop} (closed : ∀ x y z, valid x → valid y → merge x y = some z → valid z)

include closed

theorem forall_consMerging {x : α} {items : List α} (here : valid x) (below : ∀ y ∈ items, valid y) :
    ∀ y ∈ consMerging merge x items, valid y := by
  cases items with
  | nil => simpa [consMerging_nil] using here
  | cons y rest =>
    obtain ⟨next, later⟩ := List.forall_mem_cons.1 below
    cases rule : merge x y with
    | none =>
      rw [consMerging_of_none rule]
      exact List.forall_mem_cons.2 ⟨here, below⟩
    | some z =>
      rw [consMerging_of_some rule]
      exact List.forall_mem_cons.2 ⟨closed x y z here next rule, later⟩

theorem forall_foldr_consMerging {items more : List α} (all : ∀ x ∈ items, valid x) (others : ∀ x ∈ more, valid x) :
    ∀ x ∈ items.foldr (consMerging merge) more, valid x := by
  induction items with
  | nil => exact others
  | cons x rest ih =>
    obtain ⟨here, below⟩ := List.forall_mem_cons.1 all
    exact forall_consMerging closed here (ih below)

theorem forall_mergeNeighbours {items : List α} (all : ∀ x ∈ items, valid x) :
    ∀ x ∈ mergeNeighbours merge items, valid x :=
  forall_foldr_consMerging closed all (by simp)

/-- After merging, no neighbours are left that can be merged, if merging with what is in front opens up nothing. -/
theorem isChain_mergeNeighbours
    (apart : ∀ x y z w, valid x → valid y → valid w → merge x y = some z → merge y w = none → merge z w = none)
    {items : List α} (all : ∀ x ∈ items, valid x) :
    (mergeNeighbours merge items).IsChain fun x y => merge x y = none := by
  induction items with
  | nil => exact .nil
  | cons x rest ih =>
    obtain ⟨here, below⟩ := List.forall_mem_cons.1 all
    have chain := ih below
    have later := forall_mergeNeighbours closed below
    rw [mergeNeighbours_cons]
    cases split : mergeNeighbours merge rest with
    | nil => exact .singleton x
    | cons y tail =>
      rw [split] at chain later
      cases rule : merge x y with
      | none =>
        rw [consMerging_of_none rule]
        exact .cons_cons rule chain
      | some z =>
        rw [consMerging_of_some rule]
        cases tail with
        | nil => exact .singleton z
        | cons w more =>
          obtain ⟨next, chain⟩ := List.isChain_cons_cons.1 chain
          have valid_ := later w (by simp)
          exact .cons_cons (apart x y z w here (later y List.mem_cons_self) valid_ rule next) chain

end Validity

/-- Lists that are alike in every part. -/
theorem forall₂_flatMap {R : β → β → Prop} {items : List α} {f g : α → List β}
    (each : ∀ item ∈ items, List.Forall₂ R (f item) (g item)) :
    List.Forall₂ R (items.flatMap f) (items.flatMap g) := by
  induction items with
  | nil => exact .nil
  | cons item rest ih =>
    obtain ⟨here, below⟩ := List.forall_mem_cons.1 each
    rw [List.flatMap_cons, List.flatMap_cons]
    exact List.rel_append here (ih below)

theorem forall₂_trans {α β γ : Type} {R : α → β → Prop} {S : β → γ → Prop} {T : α → γ → Prop}
    (trans : ∀ a b c, R a b → S b c → T a c) {a : List α} {b : List β} {c : List γ}
    (left : List.Forall₂ R a b) (right : List.Forall₂ S b c) : List.Forall₂ T a c := by
  induction left generalizing c with
  | nil =>
    cases right
    exact .nil
  | cons first _ ih =>
    cases right with
    | cons second right => exact .cons (trans _ _ _ first second) (ih right)

/-- Lists that are related item by item are merged in the same places. -/
theorem forall₂_mergeNeighbours {R : α → α → Prop}
    (rule : ∀ x y x' y', R x x' → R y y' → Option.Rel R (merge x y) (merge x' y')) {items items' : List α}
    (related : List.Forall₂ R items items') :
    List.Forall₂ R (mergeNeighbours merge items) (mergeNeighbours merge items') := by
  induction related with
  | nil => exact .nil
  | @cons x x' rest rest' here _ ih =>
    rw [mergeNeighbours_cons, mergeNeighbours_cons]
    generalize mergeNeighbours merge rest = tail at ih ⊢
    generalize mergeNeighbours merge rest' = tail' at ih ⊢
    cases ih with
    | nil => exact .cons here .nil
    | @cons y y' _ _ next later =>
      have both := rule x y x' y' here next
      simp only [consMerging]
      generalize merge x y = z at both ⊢
      generalize merge x' y' = z' at both ⊢
      cases both with
      | none => exact .cons here (.cons next later)
      | some merged => exact .cons merged later

/-- What a merged item is made of is like what its parts are made of, so the lists are alike throughout. -/
theorem forall₂_flatMap_mergeNeighbours {valid : α → Prop} {parts : α → List β} {R : β → β → Prop}
    (closed : ∀ x y z, valid x → valid y → merge x y = some z → valid z)
    (trans : ∀ a b c, R a b → R b c → R a c) (self : ∀ x, valid x → List.Forall₂ R (parts x) (parts x))
    (whole : ∀ x y z, valid x → valid y → merge x y = some z → List.Forall₂ R (parts z) (parts x ++ parts y))
    {items : List α} (all : ∀ x ∈ items, valid x) :
    List.Forall₂ R ((mergeNeighbours merge items).flatMap parts) (items.flatMap parts) := by
  induction items with
  | nil => exact .nil
  | cons x rest ih =>
    obtain ⟨here, below⟩ := List.forall_mem_cons.1 all
    have later := forall_mergeNeighbours closed below
    have apart : List.Forall₂ R (parts x ++ (mergeNeighbours merge rest).flatMap parts)
        (parts x ++ rest.flatMap parts) := List.rel_append (self x here) (ih below)
    rw [mergeNeighbours_cons, List.flatMap_cons]
    cases split : mergeNeighbours merge rest with
    | nil =>
      rw [split] at apart
      exact apart
    | cons y tail =>
      rw [split, List.flatMap_cons] at apart
      rw [split, List.forall_mem_cons] at later
      cases rule : merge x y with
      | none =>
        rw [consMerging_of_none rule]
        exact apart
      | some z =>
        rw [← List.append_assoc] at apart
        rw [consMerging_of_some rule, List.flatMap_cons]
        refine forall₂_trans trans (List.rel_append (whole x y z here later.1 rule) ?_) apart
        exact forall₂_flatMap fun item member => self item (later.2 item member)

/-- It does not matter which of three neighbours are merged first, as long as the items are valid. -/
structure MergesInAnyOrder (merge : α → α → Option α) (valid : α → Prop) : Prop where
  closed (x y z : α) : valid x → valid y → merge x y = some z → valid z
  apart {x y z w : α} : valid x → valid y → valid w → merge x y = some z → merge y w = none →
    merge z w = none
  joins {x y z w u : α} : valid x → valid y → valid w → merge x y = some z → merge y w = some u →
    ∃ v, merge x u = some v ∧ merge z w = some v

namespace MergesInAnyOrder

variable {valid : α → Prop} (law : MergesInAnyOrder merge valid)

include law

/-- Two items that merge can be put in front of a list one after the other. -/
theorem consMerging_merged {x y z : α} {items : List α} (first : valid x) (second : valid y)
    (below : ∀ w ∈ items, valid w) (merged : merge x y = some z) :
    consMerging merge x (consMerging merge y items) = consMerging merge z items := by
  cases items with
  | nil => rw [consMerging_nil, consMerging_nil, consMerging_of_some merged]
  | cons w rest =>
    have third := below w List.mem_cons_self
    cases rule : merge y w with
    | none =>
      rw [consMerging_of_none rule, consMerging_of_some merged,
        consMerging_of_none (law.apart first second third merged rule)]
    | some u =>
      obtain ⟨v, outer, order⟩ := law.joins first second third merged rule
      rw [consMerging_of_some rule, consMerging_of_some outer, consMerging_of_some order]

/-- Merging the front of a list beforehand makes no difference. -/
theorem mergeNeighbours_merged_append {items more : List α} (all : ∀ x ∈ items, valid x)
    (others : ∀ x ∈ more, valid x) :
    mergeNeighbours merge (mergeNeighbours merge items ++ more) = mergeNeighbours merge (items ++ more) := by
  induction items with
  | nil => rfl
  | cons x rest ih =>
    obtain ⟨here, below⟩ := List.forall_mem_cons.1 all
    have front := forall_mergeNeighbours law.closed below
    rw [List.cons_append, mergeNeighbours_cons, mergeNeighbours_cons, ← ih below]
    cases merged : mergeNeighbours merge rest with
    | nil => rfl
    | cons y tail =>
      rw [merged, List.forall_mem_cons] at front
      cases rule : merge x y with
      | none => rw [consMerging_of_none rule, List.cons_append, List.cons_append, mergeNeighbours_cons]
      | some z =>
        have later : ∀ w ∈ tail ++ more, valid w := by
          intro w member
          rcases List.mem_append.1 member with inside | outside
          · exact front.2 w inside
          · exact others w outside
        rw [consMerging_of_some rule, List.cons_append, List.cons_append, mergeNeighbours_cons,
          mergeNeighbours_cons, law.consMerging_merged here front.1 (forall_mergeNeighbours law.closed later) rule]

/-- What merges to the same items merges to the same items also beside others. -/
theorem mergeNeighbours_append_congr {items items' more more' : List α} (all : ∀ x ∈ items, valid x)
    (all' : ∀ x ∈ items', valid x) (others : ∀ x ∈ more, valid x)
    (front : mergeNeighbours merge items = mergeNeighbours merge items')
    (back : mergeNeighbours merge more = mergeNeighbours merge more') :
    mergeNeighbours merge (items ++ more) = mergeNeighbours merge (items' ++ more') := by
  rw [← law.mergeNeighbours_merged_append all others, front, law.mergeNeighbours_merged_append all' others]
  simp only [mergeNeighbours, List.foldr_append] at back ⊢
  rw [back]

end MergesInAnyOrder

end ComponentMarkdown
