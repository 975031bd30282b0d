import ComponentMarkdown.Doc.TagKind
import ComponentMarkdown.Markup.Placement

namespace ComponentMarkdown

theorem MarkKind.ofTag?_eq_some_iff {tag : String} {kind : MarkKind} :
    MarkKind.ofTag? tag = some kind ↔ tag = kind.tag := by
  constructor
  · intro found
    unfold MarkKind.ofTag? at found
    split at found
    · cases found; rfl
    · cases found; rfl
    · cases found; rfl
    · cases found; rfl
    · cases found; rfl
    · cases found
  · rintro rfl
    exact MarkKind.ofTag?_tag kind

theorem MarkKind.tag_injective {kind kind' : MarkKind} (same : kind.tag = kind'.tag) : kind = kind' := by
  have found : MarkKind.ofTag? kind.tag = some kind' := MarkKind.ofTag?_eq_some_iff.2 same
  rw [MarkKind.ofTag?_tag] at found
  exact Option.some.inj found

namespace TagKind

theorem mem_of_lookup {tag : String} {kind : TagKind} {entries : List (String × TagKind)}
    (found : entries.lookup tag = some kind) : (tag, kind) ∈ entries := by
  induction entries with
  | nil => cases found
  | cons entry rest ih =>
    obtain ⟨t, k⟩ := entry
    rw [List.lookup_cons] at found
    split at found
    · rename_i same
      cases found
      rw [beq_iff_eq.1 same]
      exact List.mem_cons_self
    · exact List.mem_cons_of_mem _ (ih found)

theorem ofTag_of_mark {tag : String} {kind : MarkKind} (found : MarkKind.ofTag? tag = some kind) :
    ofTag tag = mark kind := by
  rw [ofTag, found]

theorem mem_table_or_component {tag : String} (found : MarkKind.ofTag? tag = none) :
    (tag, ofTag tag) ∈ table ∨ ofTag tag = component := by
  rw [ofTag, found]
  change (tag, (table.lookup tag).getD component) ∈ table ∨ (table.lookup tag).getD component = component
  cases entry : table.lookup tag with
  | none => exact Or.inr rfl
  | some kind => exact Or.inl (mem_of_lookup entry)

theorem ofTag_eq_mark_iff {tag : String} {kind : MarkKind} : ofTag tag = mark kind ↔ tag = kind.tag := by
  constructor
  · intro meaning
    cases found : MarkKind.ofTag? tag with
    | some other =>
      rw [ofTag_of_mark found] at meaning
      cases meaning
      exact MarkKind.ofTag?_eq_some_iff.1 found
    | none =>
      rcases mem_table_or_component found with listed | plain
      · rw [meaning] at listed
        simp [table] at listed
      · rw [meaning] at plain
        cases plain
  · rintro rfl
    exact ofTag_of_mark (MarkKind.ofTag?_tag kind)

/-- Whether the tags of a kind are listed. -/
def isListed : TagKind → Bool
  | mark _ | component => false
  | _ => true

theorem mem_table {tag : String} {kind : TagKind} (meaning : ofTag tag = kind) (listed : kind.isListed = true) :
    (tag, kind) ∈ table := by
  subst meaning
  cases found : MarkKind.ofTag? tag with
  | some other =>
    rw [ofTag_of_mark found] at listed
    cases listed
  | none =>
    refine (mem_table_or_component found).resolve_right fun plain => ?_
    rw [plain] at listed
    cases listed

/-- A kind that only one tag has. -/
theorem tag_eq {tag only : String} {kind : TagKind} (meaning : ofTag tag = kind) (listed : kind.isListed = true)
    (unique : ∀ entry ∈ table, entry.2 = kind → entry.1 = only) : tag = only :=
  unique _ (mem_table meaning listed) rfl

theorem heading_tag {tag : String} {level : Nat} (meaning : ofTag tag = heading level) :
    tag = "h" ++ toString level := by
  have listed := mem_table meaning rfl
  simp only [table, List.mem_cons, Prod.mk.injEq, reduceCtorEq, and_false, heading.injEq, List.not_mem_nil,
    or_false, false_or] at listed
  rcases listed with ⟨rfl, rfl⟩ | ⟨rfl, rfl⟩ | ⟨rfl, rfl⟩ | ⟨rfl, rfl⟩ | ⟨rfl, rfl⟩ | ⟨rfl, rfl⟩ <;> decide

end TagKind

end ComponentMarkdown
