import ComponentMarkdown.Proofs.Text
import ComponentMarkdown.Slug
import Mathlib

namespace ComponentMarkdown

namespace Slug

/-- A lower-case letter or a digit of ASCII. -/
def isSlugChar (c : Char) : Bool := c.isLower || c.isDigit

/-- Groups of lower-case letters and digits, none of them empty. -/
def AreGroups (parts : List (List Char)) : Prop := ∀ part ∈ parts, part ≠ [] ∧ ∀ c ∈ part, isSlugChar c = true

/-- The shape of a slug: nothing, or groups with single hyphens between them, behind an underscore exactly if the
first one starts with a digit. -/
inductive IsSlug : List Char → Prop
  | nothing : IsSlug []
  | letter {c : Char} {first : List Char} {rest : List (List Char)} (valid : AreGroups ((c :: first) :: rest))
      (start : c.isDigit = false) : IsSlug (Text.join ['-'] ((c :: first) :: rest))
  | digit {c : Char} {first : List Char} {rest : List (List Char)} (valid : AreGroups ((c :: first) :: rest))
      (start : c.isDigit = true) : IsSlug ('_' :: Text.join ['-'] ((c :: first) :: rest))

section Shape

theorem isUpper_lowered {c d : Char} (member : d ∈ lowered c) : d.isUpper = false := by
  unfold lowered at member
  split at member
  · rw [List.mem_singleton.1 member]
    rfl
  · split at member
    · rcases List.mem_cons.1 member with rfl | later
      · rfl
      · rw [List.mem_singleton.1 later]
        rfl
    · rw [List.mem_singleton.1 member]
      exact Char.isUpper_toLower_eq_false c

theorem mem_reduced {joined : Bool} {s : List Char} {c : Char} (member : c ∈ reduced joined s) :
    c = '-' ∨ c ∈ s ∧ c.isAlphanum = true := by
  induction s generalizing joined with
  | nil => cases member
  | cons d rest ih =>
    have later : ∀ {joined}, c ∈ reduced joined rest → c = '-' ∨ c ∈ d :: rest ∧ c.isAlphanum = true :=
      fun inside => (ih inside).imp_right fun found => ⟨List.mem_cons_of_mem d found.1, found.2⟩
    rw [reduced] at member
    split at member
    · exact later member
    · split at member
      · rcases List.mem_cons.1 member with rfl | behind
        · exact Or.inl rfl
        · exact later behind
      · split at member
        · rename_i kept
          rcases List.mem_cons.1 member with rfl | behind
          · exact Or.inr ⟨List.mem_cons_self, (Bool.and_eq_true _ _ ▸ kept).1⟩
          · exact later behind
        · exact later member

theorem areGroups_groups (s : List Char) : AreGroups (groups s) := by
  intro part member
  obtain ⟨inside, nonempty⟩ := List.mem_filter.1 member
  refine ⟨by simpa using nonempty, fun c within => ?_⟩
  have differ : c ≠ '-' := by
    rintro rfl
    exact Text.not_mem_of_mem_splitOn inside within
  obtain ⟨lower, alphanum⟩ := (mem_reduced ((Text.infix_of_mem_splitOn inside).subset within)).resolve_left differ
  obtain ⟨d, _, low⟩ := List.mem_flatMap.1 lower
  have upper := isUpper_lowered low
  rw [Char.isAlphanum, Char.isAlpha, upper, Bool.false_or] at alphanum
  exact alphanum

theorem guardDigit_join (c : Char) (first : List Char) (rest : List (List Char)) :
    guardDigit (Text.join ['-'] ((c :: first) :: rest)) =
      if c.isDigit then '_' ::
        Text.join ['-'] ((c :: first) :: rest) else Text.join ['-'] ((c :: first) :: rest) := by
  cases rest with
  | nil => rfl
  | cons => rfl

theorem isSlug_guardDigit {parts : List (List Char)} (valid : AreGroups parts) :
    IsSlug (guardDigit (Text.join ['-'] parts)) := by
  cases parts with
  | nil => exact .nothing
  | cons first rest =>
    obtain ⟨c, more, rfl⟩ := List.exists_cons_of_ne_nil (valid first List.mem_cons_self).1
    rw [guardDigit_join]
    split
    · rename_i start
      exact .digit valid start
    · rename_i start
      exact .letter valid (by simpa using start)

end Shape

section Again

theorem slugChar_range {c : Char} (plain : isSlugChar c = true) :
    (48 ≤ c.toNat ∧ c.toNat ≤ 57) ∨ (97 ≤ c.toNat ∧ c.toNat ≤ 122) := by
  have ranges :
      ((decide (97 ≤ c.val) && decide (c.val ≤ 122)) || (decide (48 ≤ c.val) && decide (c.val ≤ 57))) = true :=
    plain
  have ranges' : (97 ≤ c.toNat ∧ c.toNat ≤ 122) ∨ (48 ≤ c.toNat ∧ c.toNat ≤ 57) := by
    simpa [UInt32.le_iff_toNat_le] using ranges
  exact ranges'.symm

theorem isSeparator_of_slugChar {c : Char} (plain : isSlugChar c = true) : isSeparator c = false := by
  have range := slugChar_range plain
  have blank : Text.isBlank c = false := by
    simp only [Text.isBlank, Bool.or_eq_false_iff, Bool.and_eq_false_iff, decide_eq_false_iff_not,
      beq_eq_false_iff_ne]
    omega
  have bar : c ≠ '_' := by
    rintro rfl
    exact absurd plain (by decide)
  have hyphen : c ≠ '-' := by
    rintro rfl
    exact absurd plain (by decide)
  simp [isSeparator, blank, bar, hyphen]

theorem isAlphanum_of_slugChar {c : Char} (plain : isSlugChar c = true) : c.isAlphanum = true := by
  rw [isSlugChar, Bool.or_eq_true] at plain
  rw [Char.isAlphanum, Char.isAlpha, Bool.or_eq_true, Bool.or_eq_true]
  exact plain.imp_left Or.inr

theorem isPrepended_of_ascii {c : Char} (ascii : c.toNat < 128) : Text.isPrepended c = false := by
  rw [Text.isPrepended, Bool.and_eq_false_iff, decide_eq_false_iff_not]
  exact Or.inl (by omega)

theorem isExtending_of_ascii {c : Char} (ascii : c.toNat < 128) : Text.isExtending c = false := by
  rw [Text.isExtending, Bool.and_eq_false_iff, decide_eq_false_iff_not]
  exact Or.inl (by omega)

/-- The characters of slugs. -/
def IsPlain (c : Char) : Prop := isSlugChar c = true ∨ c = '-' ∨ c = '_'

theorem IsPlain.ascii {c : Char} (plain : IsPlain c) : c.toNat < 128 := by
  rcases plain with char | rfl | rfl
  · have range := slugChar_range char
    omega
  · decide
  · decide

theorem IsPlain.isUpper {c : Char} (plain : IsPlain c) : c.isUpper = false := by
  rcases plain with char | rfl | rfl
  · have range := slugChar_range char
    have upper : ¬(65 ≤ c.toNat ∧ c.toNat ≤ 90) := by omega
    simpa [Char.isUpper, UInt32.le_iff_toNat_le] using upper
  · rfl
  · rfl

theorem lowered_of_plain {c : Char} (plain : IsPlain c) : lowered c = [c] := by
  have kelvin : c ≠ '\u212a' := by
    rintro rfl
    exact absurd plain.ascii (by decide)
  have dotted : c ≠ '\u0130' := by
    rintro rfl
    exact absurd plain.ascii (by decide)
  rw [lowered, if_neg kelvin, if_neg dotted, Char.toLower_eq_of_not_isUpper (by simp [plain.isUpper])]

theorem flatMap_lowered {s : List Char} (plain : ∀ c ∈ s, IsPlain c) : s.flatMap lowered = s := by
  have each : s.flatMap lowered = s.flatMap fun c => [c] := by
    rw [List.flatMap_def, List.flatMap_def]
    exact congrArg List.flatten (List.map_congr_left fun c member => lowered_of_plain (plain c member))
  rw [each, List.flatMap_singleton']

/-- Every character of a slug is a cluster of its own. -/
theorem reduced_cons_of_plain {c : Char} {rest : List Char} (plain : ∀ d ∈ c :: rest, IsPlain d) :
    reduced false (c :: rest) = (if c = '_' then '-' else c) :: reduced false rest := by
  obtain ⟨here, below⟩ := List.forall_mem_cons.1 plain
  have extending : rest.head?.any Text.isExtending = false := by
    cases rest with
    | nil => rfl
    | cons d more => exact isExtending_of_ascii (below d List.mem_cons_self).ascii
  rw [reduced, isPrepended_of_ascii here.ascii, extending, Bool.false_and, if_neg Bool.false_ne_true]
  rcases here with char | rfl | rfl
  · have bar : c ≠ '_' := by
      rintro rfl
      exact absurd char (by decide)
    rw [isSeparator_of_slugChar char, isAlphanum_of_slugChar char, if_neg Bool.false_ne_true, if_neg bar]
    rfl
  · rfl
  · rfl

theorem mem_join_groups {parts : List (List Char)} (valid : AreGroups parts) {c : Char}
    (member : c ∈ Text.join ['-'] parts) : isSlugChar c = true ∨ c = '-' := by
  by_contra neither
  rw [not_or] at neither
  refine Text.not_mem_join ?_ (fun part inside within => ?_) member
  · exact fun hyphen => neither.2 (List.mem_singleton.1 hyphen)
  · exact neither.1 ((valid part inside).2 c within)

theorem reduced_of_solid {s : List Char} (solid : ∀ c ∈ s, isSlugChar c = true ∨ c = '-') :
    reduced false s = s := by
  induction s with
  | nil => rfl
  | cons c rest ih =>
    have plain : ∀ d ∈ c :: rest, IsPlain d := fun d member => (solid d member).imp_right Or.inl
    have bar : c ≠ '_' := by
      rintro rfl
      exact absurd (solid '_' List.mem_cons_self) (by decide)
    rw [reduced_cons_of_plain plain, if_neg bar, ih fun d member => solid d (List.mem_cons_of_mem c member)]

theorem splitOn_groups {parts : List (List Char)} (valid : AreGroups parts) :
    (Text.splitOn '-' (Text.join ['-'] parts)).filter (fun part => !part.isEmpty) = parts := by
  cases parts with
  | nil => rfl
  | cons first rest =>
    rw [Text.splitOn_join (List.cons_ne_nil first rest) fun part member hyphen =>
      absurd ((valid part member).2 '-' hyphen) (by decide)]
    refine List.filter_eq_self.2 fun part member => ?_
    simpa using (valid part member).1

section Groups

variable {parts : List (List Char)} (valid : AreGroups parts)

include valid

theorem groups_join : groups (Text.join ['-'] parts) = parts := by
  have solid : ∀ c ∈ Text.join ['-'] parts, isSlugChar c = true ∨ c = '-' := fun c => mem_join_groups valid
  have plain : ∀ c ∈ Text.join ['-'] parts, IsPlain c := fun c member => (solid c member).imp_right Or.inl
  rw [groups, flatMap_lowered plain, reduced_of_solid solid, splitOn_groups valid]

/-- The underscore in front counts as a hyphen with nothing before it. -/
theorem groups_bar_join : groups ('_' :: Text.join ['-'] parts) = parts := by
  have solid : ∀ c ∈ Text.join ['-'] parts, isSlugChar c = true ∨ c = '-' := fun c => mem_join_groups valid
  have plain : ∀ c ∈ '_' :: Text.join ['-'] parts, IsPlain c :=
    List.forall_mem_cons.2 ⟨Or.inr (Or.inr rfl), fun c member => (solid c member).imp_right Or.inl⟩
  rw [groups, flatMap_lowered plain, reduced_cons_of_plain plain, if_pos rfl, reduced_of_solid solid,
    Text.splitOn, if_pos rfl, List.filter_cons_of_neg (by simp), splitOn_groups valid]

end Groups

end Again

end Slug

open Slug

theorem slugify_of_isSlug {s : String} (slug : IsSlug s.toList) : slugify s = s := by
  rw [← String.toList_inj, slugify, String.toList_ofList]
  generalize s.toList = chars at slug
  cases slug with
  | nothing => rfl
  | letter valid start => rw [groups_join valid, guardDigit_join, start, if_neg Bool.false_ne_true]
  | digit valid start => rw [groups_bar_join valid, guardDigit_join, start, if_pos rfl]

/-- Whatever the text, its slug has the shape of slugs, and is its own slug. -/
theorem slugify_isSlug (s : String) : IsSlug (slugify s).toList ∧ slugify (slugify s) = slugify s := by
  have slug : IsSlug (slugify s).toList := by
    rw [slugify, String.toList_ofList]
    exact isSlug_guardDigit (areGroups_groups s.toList)
  exact ⟨slug, slugify_of_isSlug slug⟩

/-- The underscore in front of a digit is put there again. -/
example : slugify "_2024-roadmap" = "_2024-roadmap" := by decide

end ComponentMarkdown
