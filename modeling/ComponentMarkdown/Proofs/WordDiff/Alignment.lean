import ComponentMarkdown.WordDiff
import Mathlib.Data.List.Basic

namespace ComponentMarkdown.WordDiff

/-- The texts of the spans of a kind. -/
def textsOf (kind : SpanKind) (spans : List Span) : List (List Char) :=
  (spans.filter fun span => span.kind = kind).map Span.text

theorem textsOf_cons_same (kind : SpanKind) (text : List Char) (spans : List Span) :
    textsOf kind (⟨kind, text⟩ :: spans) = text :: textsOf kind spans := by
  rw [textsOf, List.filter_cons_of_pos (by simp), List.map_cons, textsOf]

theorem textsOf_cons_other {kind other : SpanKind} (differ : other ≠ kind) (text : List Char) (spans : List Span) :
    textsOf kind (⟨other, text⟩ :: spans) = textsOf kind spans := by
  rw [textsOf, List.filter_cons_of_neg (by simpa using differ), textsOf]

theorem textsOf_sublist (kind : SpanKind) (spans : List Span) :
    (textsOf kind spans).Sublist (spans.map Span.text) :=
  List.filter_sublist.map Span.text

theorem length_textsOf (spans : List Span) :
    (textsOf .added spans).length + (textsOf .unchanged spans).length = spans.length := by
  induction spans with
  | nil => rfl
  | cons span rest ih =>
    obtain ⟨kind, text⟩ := span
    cases kind with
    | unchanged =>
      rw [textsOf_cons_other (by simp), textsOf_cons_same, List.length_cons, List.length_cons]
      omega
    | added =>
      rw [textsOf_cons_same, textsOf_cons_other (by simp), List.length_cons, List.length_cons]
      omega

/-- An alignment of two lists of tokens: for every token of the second list whether it stays or is
new, with the number of those that stay. -/
structure Alignment where
  kept : Nat
  spans : List Span

namespace Alignment

def nothing : Alignment := ⟨0, []⟩

def keep (token : List Char) (rest : Alignment) : Alignment :=
  ⟨rest.kept + 1, ⟨.unchanged, token⟩ :: rest.spans⟩

def add (token : List Char) (rest : Alignment) : Alignment :=
  { rest with spans := ⟨.added, token⟩ :: rest.spans }

/-- The alignment of two lists that start with the tokens `a` and `b`, given those without `a`,
without `b`, and without both. A removal goes in front of an addition if it keeps as much. -/
def join (a b : List Char) (withoutA withoutB withoutBoth : Alignment) : Alignment :=
  if a = b then keep b withoutBoth
  else if withoutB.kept ≤ withoutA.kept then withoutA
  else add b withoutB

/-- The alignment of a list that starts with the token `a`, given those of what is behind it. -/
def joinAll (a : List Char) (below : List (List Char) → Alignment) : List (List Char) → Alignment
  | [] => nothing
  | b :: updated => join a b (below (b :: updated)) (joinAll a below updated) (below updated)

/-- A best alignment of two lists of tokens. -/
def best : List (List Char) → List (List Char) → Alignment
  | [], updated => updated.foldr add nothing
  | a :: earlier, updated => joinAll a (best earlier) updated

theorem kept_keep (token : List Char) (rest : Alignment) : (keep token rest).kept = rest.kept + 1 := rfl

theorem kept_add (token : List Char) (rest : Alignment) : (add token rest).kept = rest.kept := rfl

theorem kept_join (a b : List Char) (withoutA withoutB withoutBoth : Alignment) :
    (join a b withoutA withoutB withoutBoth).kept =
      if a = b then withoutBoth.kept + 1 else max withoutA.kept withoutB.kept := by
  rw [join]
  split
  · exact kept_keep b withoutBoth
  · split
    · rename_i more
      rw [Nat.max_eq_left more]
    · rename_i less
      rw [kept_add, Nat.max_eq_right (by omega)]

theorem best_nil_left (b : List Char) (updated : List (List Char)) :
    best [] (b :: updated) = add b (best [] updated) := rfl

theorem best_nil_right (earlier : List (List Char)) : best earlier [] = nothing := by
  cases earlier with
  | nil => rfl
  | cons => rfl

theorem best_cons (a b : List Char) (earlier updated : List (List Char)) : best (a :: earlier) (b :: updated) =
    join a b (best earlier (b :: updated)) (best (a :: earlier) updated) (best earlier updated) := rfl

theorem kept_best_nil_left (updated : List (List Char)) : (best [] updated).kept = 0 := by
  induction updated with
  | nil => rfl
  | cons b rest ih => rw [best_nil_left, kept_add, ih]

/-- An alignment of two lists of tokens that keeps as many as there can be: its spans are the second list, and the
tokens that stay stand in the first one. -/
structure Aligns (alignment : Alignment) (earlier updated : List (List Char)) : Prop where
  texts : alignment.spans.map Span.text = updated
  count : (textsOf .unchanged alignment.spans).length = alignment.kept
  common : (textsOf .unchanged alignment.spans).Sublist earlier
  longest : ∀ common : List (List Char), common.Sublist earlier → common.Sublist updated →
    common.length ≤ alignment.kept

section Aligns

variable {alignment : Alignment} {a b : List Char} {earlier updated : List (List Char)}

theorem aligns_nothing (earlier : List (List Char)) : nothing.Aligns earlier [] where
  texts := rfl
  count := rfl
  common := List.nil_sublist earlier
  longest _ _ blank := by rw [List.sublist_nil.1 blank]; exact Nat.le_refl 0

/-- A token that is on both sides stays. -/
theorem Aligns.keep (aligned : alignment.Aligns earlier updated) (b : List Char) :
    (alignment.keep b).Aligns (b :: earlier) (b :: updated) where
  texts := by rw [Alignment.keep, List.map_cons, aligned.texts]
  count := by
    rw [Alignment.keep, textsOf_cons_same, List.length_cons, aligned.count]
  common := by
    rw [Alignment.keep, textsOf_cons_same]
    exact aligned.common.cons_cons b
  longest common left right := by
    have shorter := aligned.longest common.tail left.tail right.tail
    have one : (alignment.keep b).kept = alignment.kept + 1 := rfl
    rw [List.length_tail] at shorter
    omega

/-- A token of the second list is new if nothing is lost by it. -/
theorem Aligns.add (aligned : alignment.Aligns earlier updated)
    (enough : ∀ common : List (List Char), common.Sublist earlier → common.Sublist (b :: updated) →
      common.length ≤ alignment.kept) : (alignment.add b).Aligns earlier (b :: updated) where
  texts := by rw [Alignment.add, List.map_cons, aligned.texts]
  count := by rw [Alignment.add, textsOf_cons_other (by simp), aligned.count]
  common := by
    rw [Alignment.add, textsOf_cons_other (by simp)]
    exact aligned.common
  longest := enough

/-- A token of the first list goes if nothing is lost by it. -/
theorem Aligns.drop (aligned : alignment.Aligns earlier updated)
    (enough : ∀ common : List (List Char), common.Sublist (a :: earlier) → common.Sublist updated →
      common.length ≤ alignment.kept) : alignment.Aligns (a :: earlier) updated where
  texts := aligned.texts
  count := aligned.count
  common := aligned.common.trans (List.sublist_cons_self a earlier)
  longest := enough

/-- The three alignments of the shorter lists make an alignment of the longer ones. -/
theorem Aligns.join {withoutA withoutB withoutBoth : Alignment} (dropped : withoutA.Aligns earlier (b :: updated))
    (added : withoutB.Aligns (a :: earlier) updated) (kept : withoutBoth.Aligns earlier updated) :
    (Alignment.join a b withoutA withoutB withoutBoth).Aligns (a :: earlier) (b :: updated) := by
  rw [Alignment.join]
  by_cases same : a = b
  · subst same
    rw [if_pos rfl]
    exact kept.keep a
  · rw [if_neg same]
    -- Two different tokens are not both the first of what stays, so one of them can be left out.
    have either : ∀ common : List (List Char), common.Sublist (a :: earlier) → common.Sublist (b :: updated) →
        common.length ≤ withoutA.kept ∨ common.length ≤ withoutB.kept := by
      intro common left right
      rcases List.sublist_cons_iff.1 left with left | ⟨rest, rfl, -⟩
      · exact Or.inl (dropped.longest common left right)
      · rcases List.sublist_cons_iff.1 right with right' | ⟨more, first, -⟩
        · exact Or.inr (added.longest _ left right')
        · exact absurd (List.cons.inj first).1 same
    split
    · refine dropped.drop fun common left right => ?_
      have bound := either common left right
      omega
    · refine added.add fun common left right => ?_
      have bound := either common left right
      omega

theorem aligns_best (earlier updated : List (List Char)) : (best earlier updated).Aligns earlier updated := by
  induction earlier generalizing updated with
  | nil =>
    induction updated with
    | nil => exact aligns_nothing []
    | cons b updated ih =>
      rw [best_nil_left]
      refine ih.add fun common blank _ => ?_
      rw [List.sublist_nil.1 blank]
      exact Nat.zero_le _
  | cons a earlier outer =>
    induction updated with
    | nil =>
      rw [best_nil_right]
      exact aligns_nothing (a :: earlier)
    | cons b updated inner =>
      rw [best_cons]
      exact (outer (b :: updated)).join inner (outer updated)

end Aligns

end Alignment

end ComponentMarkdown.WordDiff
