import ComponentMarkdown.Proofs.SlugRegistry
import Mathlib.Data.Nat.Find
import Mathlib.Data.Set.Finite.List
import Mathlib.Data.Set.Finite.Range

namespace ComponentMarkdown.SlugRegistry

theorem exists_free (issued : List String) (base : String) : ∃ n, 1 ≤ n ∧ numbered base n ∉ issued := by
  have injective : Function.Injective fun n => numbered base (n + 1) :=
    fun n m same => Nat.succ.inj (numbered_inj.1 same).2
  obtain ⟨_, ⟨n, rfl⟩, free⟩ := (Set.infinite_range_of_injective injective).exists_notMem_finite issued.finite_toSet
  exact ⟨n + 1, Nat.succ_pos n, free⟩

/-- A number that is free ends the search, however many more may be tried. -/
theorem firstFree_add (registry : SlugRegistry) (base : String) (fuel more n : Nat)
    (free : registry.contains (numbered base (registry.firstFree base fuel n)) = false) :
    registry.firstFree base (fuel + more) n = registry.firstFree base fuel n := by
  induction fuel generalizing n with
  | zero =>
    rw [firstFree] at free ⊢
    cases more with
    | zero => rfl
    | succ more => rw [Nat.zero_add, firstFree, free, if_neg Bool.false_ne_true]
  | succ fuel ih =>
    rw [firstFree] at free
    rw [Nat.add_right_comm, firstFree, firstFree]
    split
    · rename_i taken
      rw [if_pos taken] at free
      exact ih (n + 1) free
    · rfl

/-- The base if it was not issued, and otherwise the base with the least number from one on with which it was
not. -/
def leastFree (issued : List String) (base : String) : String :=
  if base ∈ issued then numbered base (Nat.find (exists_free issued base)) else base

/-- The slugs of texts one after the other, each the least that is free beside all that were issued before. -/
def searchAll (issued : List String) : List String → List String
  | [] => []
  | text :: rest => leastFree issued (baseOf text) :: searchAll (leastFree issued (baseOf text) :: issued) rest

/-- A registry behind the slugs that were issued: it has an entry for each of them, and with the last number of an
entry all smaller ones were issued as well. -/
structure Records (registry : SlugRegistry) (issued : List String) : Prop where
  entries : ∀ slug, registry.contains slug = true ↔ slug ∈ issued
  below : ∀ base last, registry.last? base = some last → ∀ n, 1 ≤ n → n ≤ last → numbered base n ∈ issued

theorem records_empty : Records empty [] where
  entries slug := by simp [contains, empty]
  below base last taken := by cases taken

section Records

variable {registry : SlugRegistry} {issued : List String}

theorem Records.not_mem (records : Records registry issued) {slug : String}
    (free : registry.contains slug = false) : slug ∉ issued := by
  intro member
  rw [← records.entries, free] at member
  cases member

/-- All smaller numbers were issued when a registry comes to one: the search passed those behind the last one, and
the others were issued before. -/
theorem Records.mem_of_lt (records : Records registry issued) {base : String} {last n m : Nat}
    (taken : registry.last? base = some last)
    (between : ∀ m, last < m → m < n → registry.contains (numbered base m) = true) (positive : 1 ≤ m)
    (less : m < n) : numbered base m ∈ issued := by
  rcases Nat.lt_or_ge last m with later | early
  · exact (records.entries _).1 (between m later less)
  · exact records.below base last taken m positive early

theorem Records.issue_eq (records : Records registry issued) (text : String) :
    (registry.issue text).1 = leastFree issued (baseOf text) := by
  rcases registry.issue_cases text with ⟨none, made⟩ | ⟨last, n, taken, more, free, between, made⟩
  · have outside : baseOf text ∉ issued := records.not_mem (by rw [contains_eq, none, Option.isSome_none])
    rw [made, leastFree, if_neg outside]
  · have inside : baseOf text ∈ issued := by rw [← records.entries, contains_eq, taken, Option.isSome_some]
    have least : Nat.find (exists_free issued (baseOf text)) = n := by
      refine (Nat.find_eq_iff _).2 ⟨⟨by omega, records.not_mem free⟩, ?_⟩
      rintro m less ⟨positive, outside⟩
      exact outside (records.mem_of_lt taken between positive less)
    rw [made, leastFree, if_pos inside, least]

theorem Records.issue (records : Records registry issued) (text : String) :
    Records (registry.issue text).2 ((registry.issue text).1 :: issued) where
  entries slug := by
    rw [contains_issue, Bool.or_eq_true, decide_eq_true_eq, records.entries, List.mem_cons]
  below base last' taken' m positive most := by
    rcases registry.issue_cases text with ⟨_, made⟩ | ⟨last, n, taken, _, _, between, made⟩
    · rw [made, last?, List.lookup_cons] at taken'
      split at taken'
      · obtain rfl := Option.some.inj taken'
        omega
      · exact List.mem_cons_of_mem _ (records.below base last' taken' m positive most)
    · rw [made] at taken' ⊢
      rw [last?, List.lookup_cons, List.lookup_cons] at taken'
      split at taken'
      · obtain rfl := Option.some.inj taken'
        omega
      · split at taken'
        · rename_i same
          obtain rfl := Option.some.inj taken'
          rw [eq_of_beq same]
          rcases Nat.eq_or_lt_of_le most with rfl | less
          · exact List.mem_cons_self
          · exact List.mem_cons_of_mem _ (records.mem_of_lt taken between positive less)
        · exact List.mem_cons_of_mem _ (records.below base last' taken' m positive most)

theorem Records.issueAll_eq (records : Records registry issued) (texts : List String) :
    registry.issueAll texts = searchAll issued texts := by
  induction texts generalizing registry issued with
  | nil => rfl
  | cons text rest ih =>
    calc registry.issueAll (text :: rest)
      _ = (registry.issue text).1 :: (registry.issue text).2.issueAll rest := rfl
      _ = (registry.issue text).1 :: searchAll ((registry.issue text).1 :: issued) rest := by
        rw [ih (records.issue text)]
      _ = searchAll issued (text :: rest) := by rw [searchAll, records.issue_eq text]

end Records

/-- Every text gets its base as its slug, or the base with the least number from one on, that was not issued
before, whichever texts the slugs before were issued for. The search for it ends by itself: as many numbers as a
registry has entries are always enough. -/
theorem issueAll_eq_searchAll (texts : List String) :
    empty.issueAll texts = searchAll [] texts ∧
      ∀ (registry : SlugRegistry) (base : String) (n more : Nat),
        registry.firstFree base (registry.entries.length + more) n =
          registry.firstFree base registry.entries.length n :=
  ⟨records_empty.issueAll_eq texts, fun registry base n more =>
    registry.firstFree_add base registry.entries.length more n (registry.firstFree_free base n)⟩

/-- A number that was taken by the base of another text is passed over. -/
example : empty.issueAll ["A", "A 1", "A", "A 1"] = ["a", "a-1", "a-2", "a-1-1"] := by decide

end ComponentMarkdown.SlugRegistry
