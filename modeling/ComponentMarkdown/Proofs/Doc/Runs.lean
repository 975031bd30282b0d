import ComponentMarkdown.Doc.Runs
import Mathlib.Data.List.Chain
import Mathlib.Data.List.Forall2

namespace ComponentMarkdown.Run

variable {κ α β δ : Type} {same : κ → κ → Bool} {key : α → κ}

theorem ofList_cons_of_same {x : α} {rest : List α} {run : Run κ α} {runs : List (Run κ α)}
    (split : ofList same key rest = run :: runs) (joins : same (key x) run.key = true) :
    ofList same key (x :: rest) = ⟨key x, x :: run.items⟩ :: runs := by
  simp only [ofList, split, joins, if_true]

theorem ofList_cons_of_not_same {x : α} {rest : List α}
    (apart : ∀ run ∈ (ofList same key rest).head?, same (key x) run.key = false) :
    ofList same key (x :: rest) = ⟨key x, [x]⟩ :: ofList same key rest := by
  rw [ofList]
  cases split : ofList same key rest with
  | nil => rfl
  | cons run runs =>
    have differ := apart run (by rw [split]; rfl)
    simp only [differ, Bool.false_eq_true, if_false]

theorem ofList_cons (same : κ → κ → Bool) (key : α → κ) (x : α) (rest : List α) :
    (∃ run runs, ofList same key rest = run :: runs ∧ same (key x) run.key = true ∧
      ofList same key (x :: rest) = ⟨key x, x :: run.items⟩ :: runs) ∨
    ofList same key (x :: rest) = ⟨key x, [x]⟩ :: ofList same key rest := by
  cases split : ofList same key rest with
  | nil => exact Or.inr (by rw [ofList_cons_of_not_same (by simp [split]), split])
  | cons run runs =>
    by_cases joins : same (key x) run.key = true
    · exact Or.inl ⟨run, runs, rfl, joins, ofList_cons_of_same split joins⟩
    · exact Or.inr (by rw [ofList_cons_of_not_same (by simpa [split] using joins), split])

/-- The first run has the key of the first item. -/
theorem key_of_head {items : List α} {run : Run κ α} (first : run ∈ (ofList same key items).head?) :
    ∃ x, items.head? = some x ∧ run.key = key x := by
  cases items with
  | nil => exact absurd first (by simp [ofList])
  | cons x rest =>
    refine ⟨x, rfl, ?_⟩
    rcases ofList_cons same key x rest with ⟨_, _, _, _, joined⟩ | apart
    · rw [joined] at first
      rw [← Option.some.inj first]
    · rw [apart] at first
      rw [← Option.some.inj first]

/-- Items with one key in front of a list that goes on with another key are a run. -/
theorem ofList_append {k : κ} (whole : same k k = true) {group rest : List α} (nonempty : group ≠ [])
    (keyed : ∀ x ∈ group, key x = k) (apart : ∀ x ∈ rest.head?, same k (key x) = false) :
    ofList same key (group ++ rest) = ⟨k, group⟩ :: ofList same key rest := by
  induction group with
  | nil => exact absurd rfl nonempty
  | cons x more ih =>
    obtain ⟨here, later⟩ := List.forall_mem_cons.1 keyed
    by_cases last : more = []
    · subst last
      rw [List.singleton_append, ofList_cons_of_not_same, here]
      intro run first
      obtain ⟨y, atHead, keyOf⟩ := key_of_head first
      rw [here, keyOf]
      exact apart y atHead
    · rw [List.cons_append, ofList_cons_of_same (ih last later) (by rw [here]; exact whole), here]

/-- Lists that agree item by item, keys included, are cut in the same places. -/
theorem ofList_forall₂ {key' : β → κ} {Agree : α → β → Prop} (keys : ∀ x y, Agree x y → key x = key' y)
    {items : List α} {items' : List β} (agree : List.Forall₂ Agree items items') :
    List.Forall₂ (fun run run' => run.key = run'.key ∧ List.Forall₂ Agree run.items run'.items)
      (ofList same key items) (ofList same key' items') := by
  induction agree with
  | nil => exact .nil
  | @cons x y rest rest' first _ ih =>
    have sameKey := keys x y first
    cases split : ofList same key rest with
    | nil =>
      cases split' : ofList same key' rest' with
      | nil =>
        simp only [ofList, split, split']
        exact .cons ⟨sameKey, .cons first .nil⟩ .nil
      | cons run' runs' =>
        rw [split, split'] at ih
        cases ih
    | cons run runs =>
      cases split' : ofList same key' rest' with
      | nil =>
        rw [split, split'] at ih
        cases ih
      | cons run' runs' =>
        rw [split, split', List.forall₂_cons] at ih
        obtain ⟨⟨keyed, inside⟩, later⟩ := ih
        simp only [ofList, split, split', sameKey, keyed]
        split
        · exact .cons ⟨rfl, .cons first inside⟩ later
        · exact .cons ⟨rfl, .cons first .nil⟩ (.cons ⟨keyed, inside⟩ later)

@[simp]
theorem flatten_ofList (same : κ → κ → Bool) (key : α → κ) (items : List α) :
    flatten (ofList same key items) = items := by
  induction items with
  | nil => rfl
  | cons x rest ih =>
    rcases ofList_cons same key x rest with ⟨run, runs, split, -, joined⟩ | apart
    · rw [split] at ih
      rw [joined, ← ih]
      simp only [flatten, List.flatMap_cons, List.cons_append]
    · rw [apart]
      simp only [flatten, List.flatMap_cons, List.cons_append, List.nil_append, List.cons.injEq, true_and]
      exact ih

/-- What equal keys have in common, the items of a run have in common. -/
theorem key_of_mem {common : κ → δ} (congr : ∀ a b, same a b = true → common a = common b)
    {items : List α} {run : Run κ α} (cut : run ∈ ofList same key items) {x : α} (member : x ∈ run.items) :
    common (key x) = common run.key := by
  induction items generalizing run x with
  | nil => exact absurd cut (by simp [ofList])
  | cons y rest ih =>
    rcases ofList_cons same key y rest with ⟨first, runs, split, joins, joined⟩ | apart
    · rw [joined, List.mem_cons] at cut
      rcases cut with rfl | cut
      · rcases List.mem_cons.1 member with rfl | member
        · rfl
        · rw [ih (by rw [split]; exact List.mem_cons_self) member, congr _ _ joins]
      · exact ih (by rw [split]; exact List.mem_cons_of_mem _ cut) member
    · rw [apart, List.mem_cons] at cut
      rcases cut with rfl | cut
      · rw [List.mem_singleton.1 member]
      · exact ih cut member

/-- The key of a run is that of its first item. -/
theorem key_of_head_of_mem {items : List α} {run : Run κ α} (cut : run ∈ ofList same key items) :
    run.items.head?.map key = some run.key := by
  induction items with
  | nil => exact absurd cut (by simp [ofList])
  | cons y rest ih =>
    rcases ofList_cons same key y rest with ⟨first, runs, split, -, joined⟩ | apart
    · rw [joined, List.mem_cons] at cut
      rcases cut with rfl | cut
      · rfl
      · exact ih (by rw [split]; exact List.mem_cons_of_mem _ cut)
    · rw [apart, List.mem_cons] at cut
      rcases cut with rfl | cut
      · rfl
      · exact ih cut

theorem exists_key_of_mem {items : List α} {run : Run κ α} (cut : run ∈ ofList same key items) :
    ∃ x ∈ run.items, run.key = key x := by
  obtain ⟨x, first, keyOf⟩ := Option.map_eq_some_iff.1 (key_of_head_of_mem cut)
  exact ⟨x, List.mem_of_mem_head? first, keyOf.symm⟩

/-- The key of a run is the same as that of every item in it. -/
theorem same_key_of_mem (trans : ∀ a b c, same a b = true → same b c = true → same a c = true) {items : List α}
    (refl : ∀ x ∈ items, same (key x) (key x) = true) {run : Run κ α} (cut : run ∈ ofList same key items) {x : α}
    (member : x ∈ run.items) : same run.key (key x) = true := by
  induction items generalizing run x with
  | nil => exact absurd cut (by simp [ofList])
  | cons y rest ih =>
    obtain ⟨here, below⟩ := List.forall_mem_cons.1 refl
    rcases ofList_cons same key y rest with ⟨first, runs, split, joins, joined⟩ | apart
    · rw [joined, List.mem_cons] at cut
      rcases cut with rfl | cut
      · rcases List.mem_cons.1 member with rfl | member
        · exact here
        · exact trans _ _ _ joins (ih below (by rw [split]; exact List.mem_cons_self) member)
      · exact ih below (by rw [split]; exact List.mem_cons_of_mem _ cut) member
    · rw [apart, List.mem_cons] at cut
      rcases cut with rfl | cut
      · rw [List.mem_singleton.1 member]
        exact here
      · exact ih below cut member

theorem ne_nil_of_mem {items : List α} {run : Run κ α} (cut : run ∈ ofList same key items) :
    run.items ≠ [] := by
  obtain ⟨x, member, _⟩ := exists_key_of_mem cut
  exact List.ne_nil_of_mem member

theorem mem_of_mem {items : List α} {run : Run κ α} (cut : run ∈ ofList same key items) {x : α}
    (member : x ∈ run.items) : x ∈ items := by
  rw [← flatten_ofList same key items]
  exact List.mem_flatMap.2 ⟨run, cut, member⟩

/-- Runs next to each other have different keys, if being the same is symmetric and transitive on the keys there
are. -/
theorem isChain_ofList {valid : κ → Prop} (symm : ∀ a b, valid a → valid b → same a b = true → same b a = true)
    (trans : ∀ a b c, same a b = true → same b c = true → same a c = true) {items : List α}
    (all : ∀ x ∈ items, valid (key x)) :
    (ofList same key items).IsChain fun run next => same run.key next.key = false := by
  induction items with
  | nil => exact .nil
  | cons x rest ih =>
    obtain ⟨here, below⟩ := List.forall_mem_cons.1 all
    have chain := ih below
    cases split : ofList same key rest with
    | nil =>
      rw [ofList_cons_of_not_same (by simp [split]), split]
      exact .singleton _
    | cons run runs =>
      rw [split] at chain
      by_cases joins : same (key x) run.key = true
      · rw [ofList_cons_of_same split joins]
        cases runs with
        | nil => exact .singleton _
        | cons next more =>
          obtain ⟨apart, later⟩ := List.isChain_cons_cons.1 chain
          refine .cons_cons ?_ later
          obtain ⟨y, member, keyed⟩ := exists_key_of_mem (split ▸ List.mem_cons_self)
          have first : valid run.key :=
            keyed ▸ below y (mem_of_mem (split ▸ List.mem_cons_self) member)
          -- A next run with the key of the item in front would have the key of the run as well.
          refine Bool.eq_false_iff.2 fun equal => ?_
          rw [trans _ _ _ (symm _ _ here first joins) equal] at apart
          cases apart
      · have apart : same (key x) run.key = false := Bool.eq_false_iff.2 joins
        rw [ofList_cons_of_not_same (by simpa [split] using apart), split]
        exact .cons_cons apart chain

end ComponentMarkdown.Run
