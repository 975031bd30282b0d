import ComponentMarkdown.Proofs.WordDiff.Alignment
import Mathlib.Data.Nat.Basic
import Mathlib.Order.Basic

namespace ComponentMarkdown.WordDiff

open WordDiff.Alignment

variable {earlier updated : Array (List Char)} {table : Table} {i j : Nat}

/-- A best alignment of what is in two lists of tokens from the places `i` and `j` on. -/
def bestFrom (earlier updated : Array (List Char)) (i j : Nat) : Alignment :=
  best (earlier.toList.drop i) (updated.toList.drop j)

section BestFrom

theorem drop_eq_cons (inside : i < earlier.size) :
    earlier.toList.drop i = earlier[i] :: earlier.toList.drop (i + 1) := by
  rw [List.drop_eq_getElem_cons (by rwa [Array.length_toList]), Array.getElem_toList]

theorem bestFrom_end (outside : updated.size ≤ j) : bestFrom earlier updated i j = nothing := by
  have behind : updated.toList.drop j = [] := List.drop_eq_nil_of_le (by rwa [Array.length_toList])
  rw [bestFrom, behind, best_nil_right]

theorem bestFrom_exhausted (outside : earlier.size ≤ i) (inside : j < updated.size) :
    bestFrom earlier updated i j = add updated[j] (bestFrom earlier updated i (j + 1)) := by
  rw [bestFrom, bestFrom, List.drop_eq_nil_of_le (by rwa [Array.length_toList]), drop_eq_cons inside, best_nil_left]

theorem bestFrom_eq_join (insideA : i < earlier.size) (insideB : j < updated.size) :
    bestFrom earlier updated i j = join earlier[i] updated[j] (bestFrom earlier updated (i + 1) j)
      (bestFrom earlier updated i (j + 1)) (bestFrom earlier updated (i + 1) (j + 1)) := by
  simp only [bestFrom]
  rw [drop_eq_cons insideA, drop_eq_cons insideB, best_cons]

theorem kept_bestFrom_exhausted (outside : earlier.size ≤ i) : (bestFrom earlier updated i j).kept = 0 := by
  rw [bestFrom, List.drop_eq_nil_of_le (by rwa [Array.length_toList]), kept_best_nil_left]

end BestFrom

namespace Table

theorem index_inj {i' j' : Nat} (bound : j ≤ updated.size) (bound' : j' ≤ updated.size)
    (same : index updated i j = index updated i' j') : i = i' ∧ j = j' := by
  have row : ∀ k l, l ≤ updated.size → index updated k l / (updated.size + 1) = k := by
    intro k l bound
    rw [index, Nat.mul_comm, Nat.mul_add_div (by omega), Nat.div_eq_of_lt (by omega), Nat.add_zero]
  have rows : i = i' := by rw [← row i j bound, ← row i' j' bound', same]
  subst rows
  exact ⟨rfl, Nat.add_left_cancel same⟩

theorem index_lt (boundA : i ≤ earlier.size) (boundB : j ≤ updated.size) :
    index updated i j < (earlier.size + 1) * (updated.size + 1) := by
  have rows : i * (updated.size + 1) ≤ earlier.size * (updated.size + 1) := Nat.mul_le_mul_right _ boundA
  rw [index, Nat.succ_mul]
  omega

/-- A table in which all entries behind the places `i` and `j` are filled in, and those behind the last tokens. -/
structure FilledFrom (earlier updated : Array (List Char)) (i j : Nat) (table : Table) : Prop where
  size : table.size = (earlier.size + 1) * (updated.size + 1)
  entry_eq : ∀ i' ≤ earlier.size, ∀ j' ≤ updated.size, i < i' ∨ i = i' ∧ j ≤ j' ∨ j' = updated.size →
    entry updated table i' j' = (bestFrom earlier updated i' j').kept

theorem filledFrom_empty : FilledFrom earlier updated earlier.size 0
    (Array.replicate ((earlier.size + 1) * (updated.size + 1)) 0) where
  size := Array.size_replicate
  entry_eq i' boundA j' boundB done := by
    have zero : (bestFrom earlier updated i' j').kept = 0 := by
      rcases done with beyond | ⟨last, -⟩ | last
      · omega
      · exact kept_bestFrom_exhausted last.le
      · rw [bestFrom_end last.ge]
        rfl
    rw [zero, entry, Array.getD_eq_getD_getElem?, Array.getElem?_replicate, if_pos (index_lt boundA boundB)]
    rfl

/-- The next row starts where the one behind it ends. -/
theorem FilledFrom.nextRow (filled : FilledFrom earlier updated (i + 1) 0 table) :
    FilledFrom earlier updated i updated.size table where
  size := filled.size
  entry_eq i' boundA j' boundB done := filled.entry_eq i' boundA j' boundB (by omega)

theorem FilledFrom.fill (filled : FilledFrom earlier updated i (j + 1) table) (insideA : i < earlier.size)
    (insideB : j < updated.size) : FilledFrom earlier updated i j (fill earlier updated i j table) where
  size := by rw [Table.fill, Array.size_setIfInBounds, filled.size]
  entry_eq i' boundA j' boundB done := by
    rw [Table.fill, entry, Array.getD_eq_getD_getElem?, Array.getElem?_setIfInBounds]
    split
    · rename_i here
      obtain ⟨rfl, rfl⟩ := index_inj insideB.le boundB here
      rw [if_pos (by rw [filled.size]; exact index_lt boundA boundB), Option.getD_some,
        bestFrom_eq_join insideA insideB, kept_join, Array.getElem?_eq_getElem insideA,
        Array.getElem?_eq_getElem insideB,
        filled.entry_eq (i + 1) insideA (j + 1) insideB (by omega),
        filled.entry_eq (i + 1) insideA j boundB (by omega),
        filled.entry_eq i boundA (j + 1) insideB (by omega)]
      simp only [Option.some.injEq]
    · rename_i elsewhere
      have other : ¬(i = i' ∧ j = j') := by
        rintro ⟨rfl, rfl⟩
        exact elsewhere rfl
      rw [← Array.getD_eq_getD_getElem?, ← entry]
      exact filled.entry_eq i' boundA j' boundB (by omega)

theorem FilledFrom.fillRow (filled : FilledFrom earlier updated (i + 1) 0 table) (insideA : i < earlier.size) :
    FilledFrom earlier updated i 0 (fillRow earlier updated i table) := by
  have backwards : ∀ n ≤ updated.size, ∀ table, FilledFrom earlier updated i n table →
      FilledFrom earlier updated i 0 ((List.range n).foldr (Table.fill earlier updated i) table) := by
    intro n
    induction n with
    | zero => exact fun _ _ filled => filled
    | succ n ih =>
      intro bound table filled
      rw [List.range_succ, List.foldr_append]
      exact ih (by omega) _ (filled.fill insideA bound)
  exact backwards updated.size le_rfl table filled.nextRow

/-- The entries say how many tokens a best alignment keeps. -/
theorem filledFrom_ofTokens (earlier updated : Array (List Char)) :
    FilledFrom earlier updated 0 0 (ofTokens earlier updated) := by
  have upwards : ∀ n ≤ earlier.size, ∀ table, FilledFrom earlier updated n 0 table →
      FilledFrom earlier updated 0 0 ((List.range n).foldr (Table.fillRow earlier updated) table) := by
    intro n
    induction n with
    | zero => exact fun _ _ filled => filled
    | succ n ih =>
      intro bound table filled
      rw [List.range_succ, List.foldr_append]
      exact ih (by omega) _ (filled.fillRow bound)
  exact upwards earlier.size le_rfl _ filledFrom_empty

end Table

/-- The walk through a filled table adds the spans of a best alignment one by one. -/
theorem walk_eq_foldl (filled : table.FilledFrom earlier updated 0 0) (bound : i ≤ earlier.size)
    (spans : List Span) : walk earlier updated table i j spans =
      ((bestFrom earlier updated i j).spans.foldl pushSpan spans).reverse := by
  have entry : ∀ i' ≤ earlier.size, ∀ j' ≤ updated.size,
      table.entry updated i' j' = (bestFrom earlier updated i' j').kept := fun i' boundA j' boundB =>
    filled.entry_eq i' boundA j' boundB (by omega)
  fun_induction walk earlier updated table i j spans with
  | case1 i j spans inside same ih =>
    obtain ⟨insideA, same⟩ := Array.getElem?_eq_some_iff.1 same
    rw [ih insideA, bestFrom_eq_join insideA inside, join, if_pos same, keep, List.foldl_cons]
  | case2 i j spans inside differ fewer ih =>
    obtain ⟨insideA, fewer⟩ := fewer
    rw [entry i bound (j + 1) inside, entry (i + 1) insideA j inside.le] at fewer
    rw [Array.getElem?_eq_getElem insideA, Option.some.injEq] at differ
    rw [ih insideA, bestFrom_eq_join insideA inside, join, if_neg differ, if_pos fewer]
  | case3 i j spans inside differ more ih =>
    rw [ih bound]
    by_cases insideA : i < earlier.size
    · rw [entry i bound (j + 1) inside, entry (i + 1) insideA j inside.le] at more
      rw [Array.getElem?_eq_getElem insideA, Option.some.injEq] at differ
      rw [bestFrom_eq_join insideA inside, join, if_neg differ, if_neg (fun fewer => more ⟨insideA, fewer⟩), add,
        List.foldl_cons]
    · rw [bestFrom_exhausted (by omega) inside, add, List.foldl_cons]
  | case4 i j spans outside => rw [bestFrom_end (by omega), nothing, List.foldl_nil]

end ComponentMarkdown.WordDiff
