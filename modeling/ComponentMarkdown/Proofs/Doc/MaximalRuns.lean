import ComponentMarkdown.Proofs.Doc.Mark
import ComponentMarkdown.Proofs.Doc.Runs
import Mathlib.Data.List.SplitBy

namespace ComponentMarkdown.Run

/-- A comparison of keys that is an equivalence among those that are valid. -/
structure IsEquality {κ : Type} (same : κ → κ → Bool) (valid : κ → Prop) : Prop where
  refl {a : κ} : valid a → same a a = true
  symm {a b : κ} : valid a → valid b → same a b = true → same b a = true
  trans {a b c : κ} : same a b = true → same b c = true → same a c = true

/-- A cut of a list into runs that are as long as they can be. -/
structure IsMaximalCut {κ α : Type} (same : κ → κ → Bool) (valid : κ → Prop) (key : α → κ) (items : List α)
    (runs : List (Run κ α)) : Prop where
  whole : flatten runs = items
  nonempty : ∀ run ∈ runs, run.items ≠ []
  valid : ∀ run ∈ runs, valid run.key
  keyed : ∀ run ∈ runs, ∀ x ∈ run.items, same run.key (key x) = true
  apart : runs.IsChain fun run next => same run.key next.key = false

/-- A maximal cut that has the pieces of every other one, with the same keys. -/
structure IsOnlyMaximalCut {κ α : Type} (same : κ → κ → Bool) (valid : κ → Prop) (key : α → κ) (items : List α)
    (runs : List (Run κ α)) : Prop where
  cut : IsMaximalCut same valid key items runs
  only (other : List (Run κ α)) : IsMaximalCut same valid key items other →
    List.Forall₂ (fun run own => run.items = own.items ∧ same run.key own.key = true) other runs

/-- Puts an item behind runs: into the last one if that has the key of the item, and into a run of its own
otherwise. -/
def addItem {κ α : Type} (same : κ → κ → Bool) (key : α → κ) (runs : List (Run κ α)) (x : α) : List (Run κ α) :=
  match runs.getLast? with
  | none => [⟨key x, [x]⟩]
  | some run =>
    if same run.key (key x) then runs.dropLast ++ [⟨run.key, run.items ++ [x]⟩] else runs ++ [⟨key x, [x]⟩]

variable {κ α : Type} {same : κ → κ → Bool} {valid : κ → Prop} {key : α → κ} {items : List α}
  {runs other : List (Run κ α)}

section Pass

theorem addItem_cases (same : κ → κ → Bool) (key : α → κ) (runs : List (Run κ α)) (x : α) :
    (∃ front run, runs = front ++ [run] ∧ same run.key (key x) = true ∧
      addItem same key runs x = front ++ [⟨run.key, run.items ++ [x]⟩]) ∨
    (∀ run ∈ runs.getLast?, same run.key (key x) = false) ∧ addItem same key runs x = runs ++ [⟨key x, [x]⟩] := by
  rcases List.eq_nil_or_concat runs with rfl | ⟨front, run, rfl⟩
  · exact Or.inr ⟨by simp, rfl⟩
  · simp only [List.concat_eq_append, addItem, List.getLast?_concat, List.dropLast_concat]
    by_cases joins : same run.key (key x) = true
    · exact Or.inl ⟨front, run, rfl, joins, if_pos joins⟩
    · exact Or.inr ⟨by simpa using joins, if_neg joins⟩

/-- A cut is maximal if it is so without its last run, and that run has another key than the one in front of it. -/
theorem isMaximalCut_concat_iff {front : List (Run κ α)} {run : Run κ α} :
    IsMaximalCut same valid key items (front ++ [run]) ↔
      IsMaximalCut same valid key (flatten front) front ∧ flatten front ++ run.items = items ∧ run.items ≠ [] ∧
        valid run.key ∧ (∀ x ∈ run.items, same run.key (key x) = true) ∧
        ∀ last ∈ front.getLast?, same last.key run.key = false := by
  have together : flatten (front ++ [run]) = flatten front ++ run.items := by
    simp only [flatten, List.flatMap_append, List.flatMap_singleton]
  constructor
  · rintro ⟨whole, nonempty, validKeys, keyed, apart⟩
    simp only [List.forall_mem_append, List.forall_mem_singleton] at nonempty validKeys keyed
    obtain ⟨chain, -, last⟩ := List.isChain_append.1 apart
    exact ⟨⟨rfl, nonempty.1, validKeys.1, keyed.1, chain⟩, together ▸ whole, nonempty.2, validKeys.2, keyed.2,
      fun before listed => last before listed run rfl⟩
  · rintro ⟨before, whole, nonempty, validKey, keyed, last⟩
    refine ⟨together ▸ whole, ?_, ?_, ?_, before.apart.append (.singleton _) ?_⟩
    · exact List.forall_mem_append.2 ⟨before.nonempty, List.forall_mem_singleton.2 nonempty⟩
    · exact List.forall_mem_append.2 ⟨before.valid, List.forall_mem_singleton.2 validKey⟩
    · exact List.forall_mem_append.2 ⟨before.keyed, List.forall_mem_singleton.2 keyed⟩
    · rintro other listed _ ⟨⟩
      exact last other listed

/-- One more item leaves a cut maximal. -/
theorem IsMaximalCut.addItem (cut : IsMaximalCut same valid key items runs) {x : α} (validKey : valid (key x))
    (self : same (key x) (key x) = true) :
    IsMaximalCut same valid key (items ++ [x]) (addItem same key runs x) := by
  rcases addItem_cases same key runs x with ⟨front, run, rfl, joins, added⟩ | ⟨differ, added⟩
  · -- The run that grows keeps its key, so that it stays apart from the one in front.
    obtain ⟨before, rfl, _, validRun, keyed, apart⟩ := isMaximalCut_concat_iff.1 cut
    rw [added, List.append_assoc]
    refine isMaximalCut_concat_iff.2 ⟨before, rfl, by simp, validRun, ?_, apart⟩
    exact List.forall_mem_append.2 ⟨keyed, List.forall_mem_singleton.2 joins⟩
  · obtain rfl := cut.whole
    rw [added]
    exact isMaximalCut_concat_iff.2 ⟨cut, rfl, by simp, validKey, List.forall_mem_singleton.2 self, differ⟩

theorem isMaximalCut_foldl_addItem (equality : IsEquality same valid) (all : ∀ x ∈ items, valid (key x)) :
    IsMaximalCut same valid key items (items.foldl (addItem same key) []) := by
  induction items using List.reverseRecOn with
  | nil => exact ⟨rfl, by simp, by simp, by simp, .nil⟩
  | append_singleton rest x ih =>
    obtain ⟨below, here⟩ := List.forall_mem_append.1 all
    rw [List.forall_mem_singleton] at here
    rw [List.foldl_concat]
    exact (ih below).addItem here (equality.refl here)

/-- The key of a run that the pass has made is that of its first item. -/
theorem key_of_head_foldl_addItem :
    ∀ run ∈ items.foldl (addItem same key) [], run.items.head?.map key = some run.key := by
  induction items using List.reverseRecOn with
  | nil => simp
  | append_singleton rest x ih =>
    rw [List.foldl_concat]
    rcases addItem_cases same key (rest.foldl (addItem same key) []) x
      with ⟨front, run, split, _, added⟩ | ⟨_, added⟩
    · rw [split] at ih
      obtain ⟨others, last⟩ := List.forall_mem_append.1 ih
      rw [List.forall_mem_singleton] at last
      rw [added]
      refine List.forall_mem_append.2 ⟨others, List.forall_mem_singleton.2 ?_⟩
      obtain ⟨y, head, keyOf⟩ := Option.map_eq_some_iff.1 last
      simp only [List.head?_append, head, Option.some_or, Option.map_some, keyOf]
    · rw [added]
      exact List.forall_mem_append.2 ⟨ih, by simp⟩

end Pass

/-- In two lists of runs with the same pieces, the runs of one piece stand beside each other. -/
theorem forall₂_of_pieces {R : Run κ α → Run κ α → Prop} (pieces : other.map Run.items = runs.map Run.items)
    (each : ∀ run ∈ other, ∀ own ∈ runs, run.items = own.items → R run own) : List.Forall₂ R other runs := by
  rw [← List.forall₂_eq_eq_eq, List.forall₂_map_left_iff, List.forall₂_map_right_iff, List.forall₂_iff_zip]
    at pieces
  obtain ⟨length, pairs⟩ := pieces
  refine List.forall₂_iff_zip.2 ⟨length, fun pair => ?_⟩
  obtain ⟨listed, listed'⟩ := List.of_mem_zip pair
  exact each _ listed _ listed' (pairs pair)

theorem isEquality_sameList : IsEquality Mark.sameList fun key => ∀ mark ∈ key, mark.wellFormed = true where
  refl := Mark.sameList_refl
  symm := Mark.sameList_symm
  trans := Mark.sameList_trans

theorem isEquality_sameOption : IsEquality Mark.sameOption fun key => ∀ mark ∈ key, mark.wellFormed = true where
  refl := Mark.sameOption_refl
  symm := Mark.sameOption_symm
  trans := Mark.sameOption_trans _ _ _

section Unique

variable (equality : IsEquality same valid) (all : ∀ x ∈ items, valid (key x))

include equality all

theorem isMaximalCut_ofList : IsMaximalCut same valid key items (ofList same key items) where
  whole := flatten_ofList same key items
  nonempty _ cut := ne_nil_of_mem cut
  valid run cut := by
    obtain ⟨x, member, keyOf⟩ := exists_key_of_mem cut
    rw [keyOf]
    exact all x (mem_of_mem cut member)
  keyed run cut x member := by
    have trans (a b c : κ) : same a b = true → same b c = true → same a c = true := equality.trans
    exact same_key_of_mem trans (fun x inside => equality.refl (all x inside)) cut member
  apart := @isChain_ofList _ _ same key valid (fun _ _ => equality.symm) (fun _ _ _ => equality.trans) items all

/-- The pieces of a maximal cut begin where an item has another key than the one in front of it. -/
theorem IsMaximalCut.pieces (cut : IsMaximalCut same valid key items runs) :
    runs.map Run.items = items.splitBy fun x y => same (key x) (key y) := by
  have inside {run : Run κ α} (member : run ∈ runs) {x : α} (within : x ∈ run.items) : valid (key x) := by
    refine all x ?_
    rw [← cut.whole]
    exact List.mem_flatMap.2 ⟨run, member, within⟩
  have back {run : Run κ α} (member : run ∈ runs) {x : α} (within : x ∈ run.items) : same (key x) run.key = true :=
    equality.symm (cut.valid run member) (inside member within) (cut.keyed run member x within)
  refine (List.splitBy_eq_iff.2 ⟨?_, ?_, ?_, ?_⟩).symm
  · rw [← cut.whole]
    exact List.flatMap_def
  · rintro member
    obtain ⟨run, listed, empty⟩ := List.mem_map.1 member
    exact cut.nonempty run listed empty
  · intro piece member
    obtain ⟨run, listed, rfl⟩ := List.mem_map.1 member
    refine (List.pairwise_of_forall_mem_list fun x first y second => ?_).isChain
    exact equality.trans (back listed first) (cut.keyed run listed y second)
  · rw [List.isChain_map]
    refine cut.apart.imp_of_mem_imp fun run next first second differ => ?_
    refine ⟨cut.nonempty run first, cut.nonempty next second, Bool.eq_false_iff.2 fun joins => ?_⟩
    have last := cut.keyed run first _ (List.getLast_mem (cut.nonempty run first))
    have head := back second (List.head_mem (cut.nonempty next second))
    rw [equality.trans (equality.trans last joins) head] at differ
    cases differ

theorem isOnlyMaximalCut_ofList : IsOnlyMaximalCut same valid key items (ofList same key items) := by
  have own := isMaximalCut_ofList equality all
  refine ⟨own, fun other cut => ?_⟩
  refine forall₂_of_pieces (by rw [cut.pieces equality all, own.pieces equality all]) ?_
  intro run listed run' listed' equal
  -- An item of the piece has the key of both runs.
  obtain ⟨x, member⟩ := List.exists_mem_of_ne_nil _ (cut.nonempty run listed)
  have member' : x ∈ run'.items := equal ▸ member
  have key' := own.keyed run' listed' x member'
  have back := equality.symm (own.valid run' listed') (all x (mem_of_mem listed' member')) key'
  exact ⟨equal, equality.trans (cut.keyed run listed x member) back⟩

/-- The runs can as well be found in one pass from the start of the list. -/
theorem ofList_eq_foldl : ofList same key items = items.foldl (addItem same key) [] := by
  have own := isMaximalCut_ofList equality all
  have pass := isMaximalCut_foldl_addItem equality all
  rw [← List.forall₂_eq_eq_eq]
  refine forall₂_of_pieces (by rw [own.pieces equality all, pass.pieces equality all]) ?_
  intro run listed run' listed' equal
  have first := key_of_head_of_mem listed
  have first' := key_of_head_foldl_addItem run' listed'
  rw [equal, first'] at first
  obtain ⟨key, piece⟩ := run
  obtain ⟨key', piece'⟩ := run'
  rw [Run.mk.injEq]
  exact ⟨(Option.some.inj first).symm, equal⟩

end Unique

/-- Items are grouped by their marks, and by their outermost mark, in the only way in which every group has one key
and no group has the key of the next. -/
theorem bySignature_byOuterMark_maximal {marks : α → List Mark}
    (valid : ∀ x ∈ items, ∀ mark ∈ marks x, mark.wellFormed = true) :
    (bySignature marks items = items.foldl (addItem Mark.sameList marks) [] ∧
      IsOnlyMaximalCut Mark.sameList (fun key => ∀ mark ∈ key, mark.wellFormed = true) marks items
        (bySignature marks items)) ∧
    byOuterMark marks items = items.foldl (addItem Mark.sameOption fun x => (marks x).getLast?) [] ∧
      IsOnlyMaximalCut Mark.sameOption (fun key => ∀ mark ∈ key, mark.wellFormed = true)
        (fun x => (marks x).getLast?) items (byOuterMark marks items) := by
  have outer : ∀ x ∈ items, ∀ mark ∈ (marks x).getLast?, mark.wellFormed = true := fun x member mark last =>
    valid x member mark (List.mem_of_getLast? last)
  refine ⟨⟨?_, ?_⟩, ?_, ?_⟩
  · exact ofList_eq_foldl isEquality_sameList valid
  · exact isOnlyMaximalCut_ofList isEquality_sameList valid
  · exact ofList_eq_foldl isEquality_sameOption outer
  · exact isOnlyMaximalCut_ofList isEquality_sameOption outer

/-- Two links whose attributes come in two orders, one of them in italics, and italics around another. -/
theorem bySignature_byOuterMark_maximal_links :
    let link : Mark := ⟨.link, [("href", .str "/a"), ("title", .str "b")]⟩
    let turned : Mark := ⟨.link, [("title", .str "b"), ("href", .str "/a")]⟩
    let items : List (String × List Mark) :=
      [("a", [link]), ("b", [turned]), ("c", [⟨.italic, []⟩, link]), ("d", [link, ⟨.italic, []⟩]), ("e", []),
        ("f", [])]
    (∀ x ∈ items, ∀ mark ∈ x.2, mark.wellFormed = true) ∧
      ((bySignature Prod.snd items).map fun run => run.items.map Prod.fst) =
        [["a", "b"], ["c"], ["d"], ["e", "f"]] ∧
      ((byOuterMark Prod.snd items).map fun run => run.items.map Prod.fst) = [["a", "b", "c"], ["d"], ["e", "f"]] ∧
      IsOnlyMaximalCut Mark.sameList (fun key => ∀ mark ∈ key, mark.wellFormed = true) Prod.snd items
        (bySignature Prod.snd items) ∧
      IsOnlyMaximalCut Mark.sameOption (fun key => ∀ mark ∈ key, mark.wellFormed = true)
        (fun x => x.2.getLast?) items (byOuterMark Prod.snd items) := by
  intro link turned items
  have valid : ∀ x ∈ items, ∀ mark ∈ x.2, mark.wellFormed = true := by decide
  obtain ⟨⟨-, signature⟩, -, outer⟩ := bySignature_byOuterMark_maximal valid
  exact ⟨valid, by decide, by decide, signature, outer⟩

end ComponentMarkdown.Run
