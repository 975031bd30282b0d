import ComponentMarkdown.Proofs.Markup.AttributeBlock
import ComponentMarkdown.Slug
import Mathlib.Data.List.Nodup

namespace ComponentMarkdown

namespace SlugRegistry

theorem numbered_toList (base : String) (n : Nat) :
    (numbered base n).toList = base.toList ++ '-' :: n.repr.toList := by
  simp only [numbered, String.toList_append, List.append_assoc]
  rfl

/-- The number of a slug and what it is the number of can be read off the slug. -/
theorem numbered_inj {base base' : String} {n m : Nat} :
    numbered base n = numbered base' m ↔ base = base' ∧ n = m := by
  constructor
  · intro same
    obtain ⟨_, digits, value⟩ := AttributeBlock.repr_nat n
    obtain ⟨_, digits', value'⟩ := AttributeBlock.repr_nat m
    have turned : ∀ (base : String) (n : Nat),
        (numbered base n).toList.reverse = n.repr.toList.reverse ++ '-' :: base.toList.reverse := by
      intro base n
      rw [numbered_toList, List.reverse_append, List.reverse_cons, List.append_assoc, List.singleton_append]
    have behind : ∀ (n : Nat), (∀ c ∈ n.repr.toList, c.isDigit = true) → ∀ base : String,
        (numbered base n).toList.reverse.takeWhile Char.isDigit = n.repr.toList.reverse ∧
          (numbered base n).toList.reverse.dropWhile Char.isDigit = '-' :: base.toList.reverse := by
      intro n digits base
      have all :
          ∀ c ∈ n.repr.toList.reverse, c.isDigit = true := fun c member => digits c (List.mem_reverse.1 member)
      have stop : ∀ c ∈ ('-' :: base.toList.reverse).head?, c.isDigit = false := by
        rintro c ⟨⟩
        rfl
      rw [turned]
      exact ⟨Text.takeWhile_append_stop all stop, Text.dropWhile_append_stop all stop⟩
    obtain ⟨number, front⟩ := behind n digits base
    obtain ⟨number', front'⟩ := behind m digits' base'
    rw [same, number', List.reverse_inj] at number
    rw [same, front', List.cons.injEq, List.reverse_inj, String.toList_inj] at front
    rw [number] at value'
    exact ⟨front.2.symm, value.symm.trans value'⟩
  · rintro ⟨rfl, rfl⟩
    rfl

theorem numbered_ne (base : String) (n : Nat) : numbered base n ≠ base := by
  intro same
  have longer := congrArg (fun s => s.toList.length) same
  simp only [numbered_toList, List.length_append, List.length_cons] at longer
  omega

theorem baseOf_ne_empty (text : String) : baseOf text ≠ "" := by
  simp only [baseOf]
  split
  · decide
  · assumption

/-- The last number that was tried behind a slug, if it was issued. -/
def last? (registry : SlugRegistry) (slug : String) : Option Nat := registry.entries.lookup slug

theorem contains_iff {registry : SlugRegistry} {slug : String} :
    registry.contains slug = true ↔ slug ∈ registry.entries.map Prod.fst := by
  rw [contains, Option.isSome_iff_ne_none, Ne, List.lookup_eq_none_iff]
  simp only [List.mem_map, not_forall, bne_iff_ne, ne_eq, Decidable.not_not]
  exact ⟨fun ⟨entry, member, same⟩ => ⟨entry, member, same.symm⟩,
    fun ⟨entry, member, same⟩ => ⟨entry, member, same.symm⟩⟩

theorem contains_eq (registry : SlugRegistry) (slug : String) :
    registry.contains slug = (registry.last? slug).isSome := rfl

/-- The number that is tried last is the first one that is free, unless all that may be tried are taken. -/
theorem firstFree_cases (registry : SlugRegistry) (base : String) (fuel n : Nat) :
    n ≤ registry.firstFree base fuel n ∧
      (∀ m, n ≤ m → m < registry.firstFree base fuel n → registry.contains (numbered base m) = true) ∧
      (registry.contains (numbered base (registry.firstFree base fuel n)) = false ∨
        registry.firstFree base fuel n = n + fuel) := by
  induction fuel generalizing n with
  | zero =>
    rw [firstFree]
    exact ⟨le_rfl, fun m low high => absurd high (by omega), Or.inr rfl⟩
  | succ fuel ih =>
    rw [firstFree]
    split
    · rename_i taken
      obtain ⟨low, below, last⟩ := ih (n + 1)
      refine ⟨by omega, fun m at_least less => ?_, last.imp_right fun all => by omega⟩
      rcases Nat.eq_or_lt_of_le at_least with rfl | later
      · exact taken
      · exact below m later less
    · rename_i free
      exact ⟨le_rfl, fun m low high => absurd high (by omega), Or.inl (by simpa using free)⟩

/-- The entries cannot be all the numbers that were tried and the next one as well. -/
theorem firstFree_free (registry : SlugRegistry) (base : String) (n : Nat) :
    registry.contains (numbered base (registry.firstFree base registry.entries.length n)) = false := by
  obtain ⟨_, below, last⟩ := registry.firstFree_cases base registry.entries.length n
  by_contra taken
  rw [Bool.not_eq_false] at taken
  have all : registry.firstFree base registry.entries.length n = n + registry.entries.length :=
    last.resolve_left (by simp [taken])
  rw [all] at below taken
  have listed : (List.range' n (registry.entries.length + 1)).map (numbered base) ⊆
      registry.entries.map Prod.fst := by
    intro slug member
    obtain ⟨m, inside, rfl⟩ := List.mem_map.1 member
    rw [List.mem_range'_1] at inside
    rcases Nat.eq_or_lt_of_le (Nat.lt_succ_iff.1 inside.2) with rfl | less
    · exact contains_iff.1 taken
    · exact contains_iff.1 (below m inside.1 less)
  have distinct : ((List.range' n (registry.entries.length + 1)).map (numbered base)).Nodup :=
    List.Nodup.map (fun a b same => (numbered_inj.1 same).2) List.nodup_range'
  have many := (List.subperm_of_subset distinct listed).length_le
  simp only [List.length_map, List.length_range'] at many
  omega

/-- A text gets its base as its slug if that is free, and otherwise the base with the next number that is. -/
theorem issue_cases (registry : SlugRegistry) (text : String) :
    (registry.last? (baseOf text) = none ∧
      registry.issue text = (baseOf text, ⟨(baseOf text, 0) :: registry.entries⟩)) ∨
    ∃ last n, registry.last? (baseOf text) = some last ∧ last < n ∧
      registry.contains (numbered (baseOf text) n) = false ∧
      (∀ m, last < m → m < n → registry.contains (numbered (baseOf text) m) = true) ∧
      registry.issue text =
        (numbered (baseOf text) n, ⟨(numbered (baseOf text) n, 0) :: (baseOf text, n) :: registry.entries⟩) := by
  cases found : registry.last? (baseOf text) with
  | none =>
    left
    rw [last?] at found
    simp only [issue, found, and_self]
  | some last =>
    right
    obtain ⟨low, below, _⟩ := registry.firstFree_cases (baseOf text) registry.entries.length (last + 1)
    refine ⟨last, _, rfl, low, registry.firstFree_free (baseOf text) (last + 1), below, ?_⟩
    rw [last?] at found
    simp only [issue, found]

section Issue

variable (registry : SlugRegistry) (text : String)

theorem issue_free : registry.contains (registry.issue text).1 = false := by
  rcases registry.issue_cases text with ⟨free, issued⟩ | ⟨last, n, _, _, free, _, issued⟩
  · rw [issued, contains_eq, free, Option.isSome_none]
  · rw [issued, free]

theorem issue_ne_empty : (registry.issue text).1 ≠ "" := by
  rcases registry.issue_cases text with ⟨_, issued⟩ | ⟨last, n, _, _, _, _, issued⟩
  · simp only [issued]
    exact baseOf_ne_empty text
  · rw [issued]
    intro empty
    have chars := congrArg String.toList empty
    rw [numbered_toList] at chars
    simp at chars

theorem contains_issue (slug : String) :
    (registry.issue text).2.contains slug =
    (decide (slug = (registry.issue text).1) || registry.contains slug) := by
  rcases registry.issue_cases text with ⟨_, issued⟩ | ⟨last, n, taken, _, _, _, issued⟩
  · rw [issued, contains, List.lookup_cons]
    by_cases here : slug = baseOf text
    · simp [here]
    · simp [here, beq_eq_false_iff_ne.2 here, contains]
  · rw [issued, contains, List.lookup_cons, List.lookup_cons]
    by_cases here : slug = numbered (baseOf text) n
    · simp [here]
    · by_cases base : slug = baseOf text
      · have listed : registry.contains slug = true := by rw [base, contains_eq, taken, Option.isSome_some]
        simp [beq_eq_false_iff_ne.2 here, beq_iff_eq.2 base, listed]
      · simp [here, beq_eq_false_iff_ne.2 here, beq_eq_false_iff_ne.2 base, contains]

end Issue

/-- The slugs that issuing one for a base may read or write. -/
def InFamily (base slug : String) : Prop := slug = base ∨ ∃ n, slug = numbered base n

/-- Bases of which none is the other, nor the other with a number behind it. -/
def Unrelated (base base' : String) : Prop :=
  base ≠ base' ∧ (∀ n, base ≠ numbered base' n) ∧ ∀ n, base' ≠ numbered base n

theorem Unrelated.symm {base base' : String} (apart : Unrelated base base') : Unrelated base' base :=
  ⟨apart.1.symm, apart.2.2, apart.2.1⟩

/-- Bases of which none begins with the other. -/
theorem unrelated_of_not_prefix {base base' : String} (left : ¬ base.toList <+: base'.toList)
    (right : ¬ base'.toList <+: base.toList) : Unrelated base base' := by
  have front : ∀ (base : String) (n : Nat), base.toList <+: (numbered base n).toList := fun base n => by
    rw [numbered_toList]
    exact List.prefix_append _ _
  refine ⟨?_, ?_, ?_⟩
  · rintro rfl
    exact left (List.prefix_refl _)
  · rintro n rfl
    exact right (front base' n)
  · rintro n rfl
    exact left (front base n)

theorem Unrelated.not_inFamily {base base' slug : String} (apart : Unrelated base base')
    (inside : InFamily base slug) : ¬ InFamily base' slug := by
  obtain ⟨differ, left, right⟩ := apart
  rintro (here | ⟨m, here⟩)
  · rcases inside with there | ⟨n, there⟩
    · exact differ (there.symm.trans here)
    · exact right n (here.symm.trans there)
  · rcases inside with there | ⟨n, there⟩
    · exact left m (there.symm.trans here)
    · exact differ (numbered_inj.1 (there.symm.trans here)).1

/-- Slugs of other families are left alone. -/
theorem last?_issue_of_not_inFamily (registry : SlugRegistry) {text slug : String}
    (outside : ¬ InFamily (baseOf text) slug) : (registry.issue text).2.last? slug = registry.last? slug := by
  have base : slug ≠ baseOf text := fun same => outside (Or.inl same)
  rcases registry.issue_cases text with ⟨_, issued⟩ | ⟨last, n, _, _, _, _, issued⟩
  · rw [issued, last?, List.lookup_cons, beq_eq_false_iff_ne.2 base]
    rfl
  · have slugged : slug ≠ numbered (baseOf text) n := fun same => outside (Or.inr ⟨n, same⟩)
    rw [issued, last?, List.lookup_cons, List.lookup_cons, beq_eq_false_iff_ne.2 base,
      beq_eq_false_iff_ne.2 slugged]
    rfl

/-- What is issued for a text is the same in registries that agree on its family, and then they go on to agree
where they did. -/
theorem issue_congr {registry other : SlugRegistry} (text : String)
    (agree : ∀ slug, InFamily (baseOf text) slug → registry.last? slug = other.last? slug) :
    (registry.issue text).1 = (other.issue text).1 ∧ ∀ slug, registry.last? slug = other.last? slug →
      (registry.issue text).2.last? slug = (other.issue text).2.last? slug := by
  have base := agree _ (Or.inl rfl)
  have number : ∀ n, registry.contains (numbered (baseOf text) n) = other.contains (numbered (baseOf text) n) := by
    intro n
    rw [contains_eq, contains_eq, agree _ (Or.inr ⟨n, rfl⟩)]
  rcases registry.issue_cases text with ⟨free, issued⟩ | ⟨last, n, taken, low, free, below, issued⟩
  · rcases other.issue_cases text with ⟨_, issued'⟩ | ⟨last', n', taken', _⟩
    · rw [issued, issued']
      refine ⟨rfl, fun slug same => ?_⟩
      rw [last?, last?] at same
      simp only [last?, List.lookup_cons, same]
    · rw [← base, free] at taken'
      cases taken'
  · rcases other.issue_cases text with ⟨free', _⟩ | ⟨last', n', taken', low', free', below', issued'⟩
    · rw [← base, taken] at free'
      cases free'
    · obtain rfl : last = last' := by
        rw [← base, taken] at taken'
        exact Option.some.inj taken'
      have first : n = n' := by
        rcases Nat.lt_trichotomy n n' with less | same | more
        · rw [number, below' n low less] at free
          cases free
        · exact same
        · rw [← number, below n' low' more] at free'
          cases free'
      subst first
      rw [issued, issued']
      refine ⟨rfl, fun slug same => ?_⟩
      rw [last?, last?] at same
      simp only [last?, List.lookup_cons, same]

/-- The slugs of a family by number: the base has none. -/
def member (base : String) : Nat → String
  | 0 => base
  | n + 1 => numbered base (n + 1)

theorem member_injective (base : String) : Function.Injective (member base) := by
  intro n m same
  cases n with
  | zero =>
    cases m with
    | zero => rfl
    | succ m => exact absurd same.symm (numbered_ne base _)
  | succ n =>
    cases m with
    | zero => exact absurd same (numbered_ne base _)
    | succ m => exact (numbered_inj.1 same).2

/-- The slug of a text has the number that is the last one of its base from then on, and a larger one than was the
last before. -/
theorem issue_member (registry : SlugRegistry) (text : String) :
    ∃ n, (registry.issue text).1 = member (baseOf text) n ∧
    (registry.issue text).2.last? (baseOf text) = some n ∧ ∀ last ∈ registry.last? (baseOf text), last < n := by
  rcases registry.issue_cases text with ⟨free, issued⟩ | ⟨last, n, taken, low, _, _, issued⟩
  · refine ⟨0, by simp only [issued, member], by simp [issued, last?], ?_⟩
    rw [free]
    nofun
  · obtain ⟨n, rfl⟩ := Nat.exists_eq_succ_of_ne_zero (by omega : n ≠ 0)
    refine ⟨n + 1, by simp only [issued, member], ?_, ?_⟩
    · rw [issued, last?, List.lookup_cons, beq_eq_false_iff_ne.2 (numbered_ne _ _).symm]
      simp
    · rw [taken]
      rintro _ ⟨⟩
      exact low

/-- The last number of a base never falls. -/
theorem last?_issue_mono {registry : SlugRegistry} {base : String} {last : Nat}
    (taken : registry.last? base = some last)
    (text : String) : ∃ later, (registry.issue text).2.last? base = some later ∧ last ≤ later := by
  by_cases same : base = baseOf text
  · obtain ⟨n, _, after, more⟩ := registry.issue_member text
    rw [← same] at after more
    exact ⟨n, after, (more last taken).le⟩
  · rcases registry.issue_cases text with ⟨_, issued⟩ | ⟨_, n, _, _, free, _, issued⟩
    · refine ⟨last, ?_, le_rfl⟩
      rw [last?] at taken
      rw [issued, last?, List.lookup_cons, beq_eq_false_iff_ne.2 same]
      exact taken
    · have other : base ≠ numbered (baseOf text) n := by
        rintro rfl
        rw [contains_eq, taken] at free
        cases free
      refine ⟨last, ?_, le_rfl⟩
      rw [last?] at taken
      rw [issued, last?, List.lookup_cons, List.lookup_cons, beq_eq_false_iff_ne.2 same,
        beq_eq_false_iff_ne.2 other]
      exact taken

end SlugRegistry

/-- A text with the slug that was issued for it. -/
structure Anchor where
  text : String
  slug : String
deriving DecidableEq, Repr, Inhabited

theorem Anchor.eq_of_parts {anchors others : List Anchor} (texts : anchors.map text = others.map text)
    (slugs : anchors.map slug = others.map slug) : anchors = others := by
  induction anchors generalizing others with
  | nil => exact (List.map_eq_nil_iff.1 texts.symm).symm
  | cons anchor rest ih =>
    cases others with
    | nil => cases texts
    | cons other more =>
      obtain ⟨text, slug⟩ := anchor
      obtain ⟨text', slug'⟩ := other
      obtain ⟨rfl, laterTexts⟩ := List.cons.inj texts
      obtain ⟨rfl, laterSlugs⟩ := List.cons.inj slugs
      rw [ih laterTexts laterSlugs]

namespace SlugRegistry

/-- Whether anchors got their slugs one after the other, the first from a given registry. -/
def Issued (registry : SlugRegistry) : List Anchor → Prop
  | [] => True
  | anchor :: rest => anchor.slug = (registry.issue anchor.text).1 ∧ Issued (registry.issue anchor.text).2 rest

/-- The registry behind a list of anchors. -/
def after (registry : SlugRegistry) (anchors : List Anchor) : SlugRegistry :=
  anchors.foldl (fun registry anchor => (registry.issue anchor.text).2) registry

theorem issued_append {registry : SlugRegistry} {anchors more : List Anchor} :
    registry.Issued (anchors ++ more) ↔ registry.Issued anchors ∧ (registry.after anchors).Issued more := by
  induction anchors generalizing registry with
  | nil => simp [Issued, after]
  | cons anchor rest ih =>
    rw [List.cons_append, Issued, Issued, ih, and_assoc]
    rfl

theorem after_append (registry : SlugRegistry) (anchors more : List Anchor) :
    registry.after (anchors ++ more) = (registry.after anchors).after more := List.foldl_append

theorem issued_single (registry : SlugRegistry) (text : String) :
    registry.Issued [⟨text, (registry.issue text).1⟩] := ⟨rfl, trivial⟩

/-- The texts determine the slugs. -/
theorem Issued.slugs_eq {registry : SlugRegistry} {anchors others : List Anchor} (issued : registry.Issued anchors)
    (issued' : registry.Issued others) (texts : anchors.map Anchor.text = others.map Anchor.text) :
    anchors = others := by
  refine Anchor.eq_of_parts texts ?_
  induction anchors generalizing registry others with
  | nil => rw [List.map_eq_nil_iff.1 texts.symm]
  | cons anchor rest ih =>
    cases others with
    | nil => cases texts
    | cons other more =>
      rw [List.map_cons, List.map_cons, List.cons.injEq] at texts
      obtain ⟨here, below⟩ := issued
      obtain ⟨here', below'⟩ := issued'
      rw [← texts.1] at here' below'
      rw [List.map_cons, List.map_cons, here, here', ih below below' texts.2]

theorem Issued.contains_of_before {registry : SlugRegistry} {slug : String} (taken : registry.contains slug = true)
    {anchors : List Anchor} (issued : registry.Issued anchors) : slug ∉ anchors.map Anchor.slug := by
  induction anchors generalizing registry with
  | nil => simp
  | cons anchor rest ih =>
    obtain ⟨here, below⟩ := issued
    rw [List.map_cons, List.mem_cons, not_or]
    refine ⟨?_, ih ?_ below⟩
    · rintro rfl
      rw [here, issue_free] at taken
      cases taken
    · rw [contains_issue, taken, Bool.or_true]

/-- No slug is issued twice. -/
theorem Issued.nodup {registry : SlugRegistry} {anchors : List Anchor} (issued : registry.Issued anchors) :
    (anchors.map Anchor.slug).Nodup := by
  induction anchors generalizing registry with
  | nil => exact List.nodup_nil
  | cons anchor rest ih =>
    obtain ⟨here, below⟩ := issued
    refine List.nodup_cons.2 ⟨below.contains_of_before ?_, ih below⟩
    rw [contains_issue, here]
    simp

theorem Issued.ne_empty {registry : SlugRegistry} {anchors : List Anchor} (issued : registry.Issued anchors) :
    ∀ slug ∈ anchors.map Anchor.slug, slug ≠ "" := by
  induction anchors generalizing registry with
  | nil => nofun
  | cons anchor rest ih =>
    obtain ⟨here, below⟩ := issued
    refine List.forall_mem_cons.2 ⟨?_, ih below⟩
    rw [here]
    exact issue_ne_empty _ _

/-- Registries that agree issue the same slugs. -/
theorem Issued.congr {registry other : SlugRegistry} (agree : ∀ slug, registry.last? slug = other.last? slug)
    {anchors : List Anchor} (issued : registry.Issued anchors) : other.Issued anchors := by
  induction anchors generalizing registry other with
  | nil => exact trivial
  | cons anchor rest ih =>
    obtain ⟨here, below⟩ := issued
    obtain ⟨same, later⟩ := issue_congr anchor.text fun slug _ => agree slug
    exact ⟨here.trans same, ih (fun slug => later slug (agree slug)) below⟩

/-- Neighbours of unrelated families may change places. -/
theorem Issued.swap {registry : SlugRegistry} {first second : Anchor} {rest : List Anchor}
    (apart : Unrelated (baseOf first.text) (baseOf second.text))
    (issued : registry.Issued (first :: second :: rest)) : registry.Issued (second :: first :: rest) := by
  obtain ⟨here, next, below⟩ := issued
  obtain ⟨same, kept⟩ := issue_congr second.text
    fun slug inside => registry.last?_issue_of_not_inFamily (apart.symm.not_inFamily inside)
  obtain ⟨same', kept'⟩ := issue_congr first.text
    fun slug inside => registry.last?_issue_of_not_inFamily (apart.not_inFamily inside)
  refine ⟨next.trans same, here.trans same'.symm, below.congr fun slug => ?_⟩
  by_cases inside : InFamily (baseOf second.text) slug
  · have outside := apart.symm.not_inFamily inside
    rw [kept slug (last?_issue_of_not_inFamily _ outside), last?_issue_of_not_inFamily _ outside]
  · rw [kept' slug (last?_issue_of_not_inFamily _ inside), last?_issue_of_not_inFamily _ inside]

/-- Whether anchors that were issued in one order would have been the same in another, whatever was issued before
and afterwards. -/
def Exchanges (anchors others : List Anchor) : Prop :=
  ∀ (registry : SlugRegistry) (rest : List Anchor), registry.Issued (anchors ++ rest) →
    registry.Issued (others ++ rest)

theorem Exchanges.refl (anchors : List Anchor) : Exchanges anchors anchors := fun _ _ issued => issued

theorem Exchanges.trans {anchors others more : List Anchor} (first : Exchanges anchors others)
    (second : Exchanges others more) : Exchanges anchors more :=
  fun registry rest issued => second registry rest (first registry rest issued)

theorem Exchanges.append {anchors others more more' : List Anchor} (front : Exchanges anchors others)
    (back : Exchanges more more') : Exchanges (anchors ++ more) (others ++ more') := by
  intro registry rest issued
  rw [List.append_assoc] at issued ⊢
  have exchanged := front registry _ issued
  rw [issued_append] at exchanged ⊢
  exact ⟨exchanged.1, back _ _ exchanged.2⟩

/-- Anchors in a row and others behind them, all of unrelated families, may change places. -/
theorem Exchanges.swap {anchors others : List Anchor}
    (apart : ∀ anchor ∈ anchors, ∀ other ∈ others, Unrelated (baseOf anchor.text) (baseOf other.text)) :
    Exchanges (anchors ++ others) (others ++ anchors) := by
  have single : ∀ (anchor : Anchor) (others : List Anchor),
      (∀ other ∈ others, Unrelated (baseOf anchor.text) (baseOf other.text)) →
      Exchanges (anchor :: others) (others ++ [anchor]) := by
    intro anchor others apart
    induction others with
    | nil => exact .refl _
    | cons other rest ih =>
      obtain ⟨here, below⟩ := List.forall_mem_cons.1 apart
      have first :
          Exchanges (anchor :: other :: rest) (other :: anchor :: rest) := fun _ _ issued => issued.swap here
      exact first.trans (Exchanges.append (.refl [other]) (ih below))
  induction anchors with
  | nil =>
    rw [List.nil_append, List.append_nil]
    exact .refl _
  | cons anchor rest ih =>
    obtain ⟨here, below⟩ := List.forall_mem_cons.1 apart
    have later : Exchanges (anchor :: (rest ++ others)) (anchor :: (others ++ rest)) :=
      Exchanges.append (.refl [anchor]) (ih below)
    have moved := Exchanges.append (single anchor others here) (.refl rest)
    rw [List.append_assoc] at moved
    exact later.trans moved

/-- A base that was issued before gets larger numbers only. -/
theorem Issued.above {registry : SlugRegistry} {base : String} {last : Nat}
    (taken : registry.last? base = some last)
    {anchors : List Anchor} (issued : registry.Issued anchors) {anchor : Anchor} (inside : anchor ∈ anchors)
    (same : baseOf anchor.text = base) : ∃ n, last < n ∧ anchor.slug = member base n := by
  induction anchors generalizing registry last with
  | nil => cases inside
  | cons first rest ih =>
    obtain ⟨here, below⟩ := issued
    rcases List.mem_cons.1 inside with rfl | later
    · obtain ⟨n, slug, _, more⟩ := registry.issue_member anchor.text
      rw [same] at slug more
      exact ⟨n, more last taken, here.trans slug⟩
    · obtain ⟨next, taken', least⟩ := last?_issue_mono taken first.text
      obtain ⟨n, more, slug⟩ := ih taken' below later
      exact ⟨n, least.trans_lt more, slug⟩

/-- Of two anchors of one base the later one has the larger number. -/
theorem Issued.rising {registry : SlugRegistry} {anchors : List Anchor} (issued : registry.Issued anchors) :
    anchors.Pairwise fun first second => baseOf first.text = baseOf second.text →
      ∃ n m, n < m ∧ first.slug = member (baseOf first.text) n ∧ second.slug = member (baseOf first.text) m := by
  induction anchors generalizing registry with
  | nil => exact .nil
  | cons anchor rest ih =>
    obtain ⟨here, below⟩ := issued
    refine .cons (fun second inside same => ?_) (ih below)
    obtain ⟨n, slug, taken, _⟩ := registry.issue_member anchor.text
    obtain ⟨m, more, slug'⟩ := below.above taken inside same.symm
    exact ⟨n, m, more, here.trans slug, slug'⟩

end SlugRegistry

end ComponentMarkdown
