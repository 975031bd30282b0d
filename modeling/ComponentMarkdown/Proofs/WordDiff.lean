import ComponentMarkdown.Proofs.WordDiff.Table
import Mathlib.Data.List.SplitBy

namespace ComponentMarkdown.WordDiff

section Tokens

/-- Texts that are cut into tokens where one of them ends. -/
def AreTokens (parts : List (List Char)) : Prop := tokens parts.flatten = parts

theorem areTokens_tokens (s : List Char) : AreTokens (tokens s) := by
  have whole : (tokens s).flatten = s := List.flatten_splitBy _ s
  rw [AreTokens, whole]

variable {part : List Char} {rest : List (List Char)}

theorem AreTokens.tail (cut : AreTokens (part :: rest)) : AreTokens rest := by
  obtain ⟨_, some, solid, apart⟩ := List.splitBy_eq_iff.1 cut
  exact List.splitBy_flatten (fun none => some (List.mem_cons_of_mem _ none))
    (fun other member => solid other (List.mem_cons_of_mem _ member)) apart.tail

theorem AreTokens.ne_nil (cut : AreTokens (part :: rest)) : part ≠ [] := by
  obtain ⟨_, some, _, _⟩ := List.splitBy_eq_iff.1 cut
  rintro rfl
  exact some List.mem_cons_self

theorem AreTokens.tokens_head (cut : AreTokens (part :: rest)) : tokens part = [part] := by
  obtain ⟨_, _, solid, _⟩ := List.splitBy_eq_iff.1 cut
  exact List.splitBy_of_isChain cut.ne_nil (solid part List.mem_cons_self)

/-- A text that starts like the next token is cut off from the token in front. -/
theorem AreTokens.tokens_append {next text : List Char} (cut : AreTokens (part :: next :: rest))
    (starts : next <+: text) : tokens (part ++ text) = part :: tokens text := by
  obtain ⟨_, _, _, apart⟩ := List.splitBy_eq_iff.1 cut
  obtain ⟨_, _, classes⟩ := (List.isChain_cons_cons.1 apart).1
  have split : tokens (part ++ text) = tokens part ++ tokens text := by
    refine List.splitBy_append fun x last y first => ?_
    obtain ⟨c, more, rfl⟩ := List.exists_cons_of_ne_nil cut.tail.ne_nil
    obtain ⟨behind, rfl⟩ := starts
    obtain rfl : c = y := Option.some.inj first
    rw [List.getLast_of_mem_getLast? last] at classes
    exact classes
  rw [split, cut.tokens_head, List.singleton_append]

/-- The maximal runs of blanks and of other characters: runs of the two classes take turns. -/
structure AreRuns (runs : List (List Char)) (s : List Char) : Prop where
  whole : runs.flatten = s
  nonempty : ∀ run ∈ runs, run ≠ []
  uniform : ∀ run ∈ runs, ∀ c ∈ run, ∀ d ∈ run, Text.isBlank c = Text.isBlank d
  apart : runs.IsChain fun first second => ∀ c ∈ first, ∀ d ∈ second, Text.isBlank c ≠ Text.isBlank d

theorem isBlank_of_isChain {c : Char} {s : List Char}
    (chain : (c :: s).IsChain fun a b => (Text.isBlank a == Text.isBlank b) = true) :
    ∀ d ∈ c :: s, Text.isBlank d = Text.isBlank c := by
  induction s generalizing c with
  | nil => exact List.forall_mem_singleton.2 rfl
  | cons e rest ih =>
    obtain ⟨same, below⟩ := List.isChain_cons_cons.1 chain
    refine List.forall_mem_cons.2 ⟨rfl, fun d member => ?_⟩
    rw [ih below d member, beq_iff_eq.1 same]

theorem areRuns_tokens (s : List Char) : AreRuns (tokens s) s := by
  obtain ⟨whole, some, solid, apart⟩ := List.splitBy_eq_iff.1 (rfl : tokens s = tokens s)
  have nonempty : ∀ run ∈ tokens s, run ≠ [] := by
    rintro run member rfl
    exact some member
  have uniform : ∀ run ∈ tokens s, ∀ c ∈ run, ∀ d ∈ run, Text.isBlank c = Text.isBlank d := by
    intro run member c here d there
    obtain ⟨first, rest, rfl⟩ := List.exists_cons_of_ne_nil (nonempty run member)
    have same := isBlank_of_isChain (solid _ member)
    rw [same c here, same d there]
  refine ⟨whole.symm, nonempty, uniform, apart.imp_of_mem_imp ?_⟩
  rintro first second inside inside' ⟨some, some', differ⟩ c here d there same
  rw [uniform first inside _ (List.getLast_mem some) c here, uniform second inside' _ (List.head_mem some') d there,
    same, beq_self_eq_true] at differ
  cases differ

end Tokens

section Joined

/-- Joins neighbouring spans of one kind. -/
def joinSpans : List Span → List Span
  | [] => []
  | span :: rest =>
    match joinSpans rest with
    | [] => [span]
    | next :: spans =>
      if span.kind = next.kind then ⟨span.kind, span.text ++ next.text⟩ :: spans
      else span :: next :: spans

/-- A span becomes one with the span behind it if both are of one kind. -/
theorem joinSpans_cons_cons (last token : Span) (rest : List Span) : joinSpans (last :: token :: rest) =
    if last.kind = token.kind then joinSpans (⟨last.kind, last.text ++ token.text⟩ :: rest)
    else last :: joinSpans (token :: rest) := by
  cases joined : joinSpans rest with
  | nil => simp only [joinSpans, joined]
  | cons next more =>
    by_cases behind : token.kind = next.kind
    · simp only [joinSpans, joined, if_pos behind]
      by_cases here : last.kind = token.kind
      · simp only [if_pos here, if_pos (here.trans behind), List.append_assoc]
      · simp only [if_neg here]
    · simp only [joinSpans, joined, if_neg behind]
      by_cases here : last.kind = token.kind
      · simp only [if_pos here, if_neg (here ▸ behind)]
      · simp only [if_neg here]

/-- Spans that are added one by one behind others are joined with the last of these. -/
theorem foldl_pushSpan (last : Span) (front tokens : List Span) :
    (tokens.foldl pushSpan (last :: front)).reverse = front.reverse ++ joinSpans (last :: tokens) := by
  induction tokens generalizing last front with
  | nil => exact List.reverse_cons
  | cons token rest ih =>
    rw [List.foldl_cons, pushSpan, joinSpans_cons_cons]
    split
    · exact ih _ front
    · rw [ih token (last :: front), List.reverse_cons, List.append_assoc, List.singleton_append]

theorem foldl_pushSpan_nil (tokens : List Span) : (tokens.foldl pushSpan []).reverse = joinSpans tokens := by
  cases tokens with
  | nil => rfl
  | cons token rest => exact foldl_pushSpan token [] rest

theorem joinSpans_eq_nil {spans : List Span} (none : joinSpans spans = []) : spans = [] := by
  cases spans with
  | nil => rfl
  | cons span rest =>
    rw [joinSpans] at none
    split at none
    · cases none
    · split at none <;> cases none

/-- A span becomes one with the joined span behind it if both are of one kind. -/
theorem joinSpans_cons_cases (span : Span) (rest : List Span) :
    (rest = [] ∧ joinSpans (span :: rest) = [span]) ∨ ∃ next more, joinSpans rest = next :: more ∧
      (span.kind = next.kind ∧ joinSpans (span :: rest) = ⟨span.kind, span.text ++ next.text⟩ :: more ∨
        span.kind ≠ next.kind ∧ joinSpans (span :: rest) = span :: next :: more) := by
  cases joined : joinSpans rest with
  | nil => exact Or.inl ⟨joinSpans_eq_nil joined, by rw [joinSpans, joined]⟩
  | cons next more =>
    refine Or.inr ⟨next, more, rfl, ?_⟩
    by_cases same : span.kind = next.kind
    · exact Or.inl ⟨same, by simp only [joinSpans, joined, if_pos same]⟩
    · exact Or.inr ⟨same, by simp only [joinSpans, joined, if_neg same]⟩

/-- The first of the joined spans starts with the text of the first span. -/
theorem prefix_of_joinSpans {span joined : Span} {rest more : List Span}
    (first : joinSpans (span :: rest) = joined :: more) : span.text <+: joined.text := by
  rcases joinSpans_cons_cases span rest with ⟨_, alone⟩ | ⟨next, others, _, ⟨_, merged⟩ | ⟨_, apart⟩⟩
  · obtain ⟨rfl, -⟩ := List.cons.inj (alone.symm.trans first)
    exact List.prefix_rfl
  · obtain ⟨rfl, -⟩ := List.cons.inj (merged.symm.trans first)
    exact List.prefix_append _ _
  · obtain ⟨rfl, -⟩ := List.cons.inj (apart.symm.trans first)
    exact List.prefix_rfl

/-- The tokens of the joined spans of a kind are those of the spans. -/
theorem tokens_joinSpans (kind : SpanKind) {spans : List Span} (cut : AreTokens (spans.map Span.text)) :
    (textsOf kind (joinSpans spans)).flatMap tokens = textsOf kind spans := by
  induction spans with
  | nil => rfl
  | cons span rest ih =>
    obtain ⟨kind', text⟩ := span
    have behind := ih cut.tail
    have alone : tokens text = [text] := cut.tokens_head
    rcases joinSpans_cons_cases ⟨kind', text⟩ rest with ⟨rfl, single⟩ | ⟨⟨kind'', text'⟩, more, joined, step⟩
    · rw [single]
      by_cases same : kind' = kind
      · subst same
        rw [textsOf_cons_same, List.flatMap_cons, alone]
        rfl
      · rw [textsOf_cons_other same]
        rfl
    · rw [joined] at behind
      have apart : tokens (text ++ text') = text :: tokens text' := by
        cases rest with
        | nil => cases joined
        | cons second others => exact cut.tokens_append (prefix_of_joinSpans joined)
      rcases step with ⟨both, merged⟩ | ⟨_, split⟩
      · obtain rfl : kind' = kind'' := both
        rw [merged]
        by_cases same : kind' = kind
        · subst same
          rw [textsOf_cons_same, List.flatMap_cons] at behind
          rw [textsOf_cons_same, textsOf_cons_same, List.flatMap_cons, apart, List.cons_append, behind]
        · rw [textsOf_cons_other same] at behind
          rw [textsOf_cons_other same, textsOf_cons_other same, behind]
      · rw [split]
        by_cases same : kind' = kind
        · subst same
          rw [textsOf_cons_same, textsOf_cons_same, List.flatMap_cons, alone, List.singleton_append, behind]
        · rw [textsOf_cons_other same, textsOf_cons_other same, behind]

/-- Spans that make up a text, of which none is empty and neighbours are of different kinds. -/
structure Covers (spans : List Span) (s : List Char) : Prop where
  whole : spans.flatMap Span.text = s
  nonempty : ∀ span ∈ spans, span.text ≠ []
  alternate : spans.IsChain fun first second => first.kind ≠ second.kind

theorem covers_joinSpans {spans : List Span} (nonempty : ∀ span ∈ spans, span.text ≠ []) :
    Covers (joinSpans spans) (spans.flatMap Span.text) := by
  induction spans with
  | nil => exact ⟨rfl, nofun, .nil⟩
  | cons span rest ih =>
    obtain ⟨here, later⟩ := List.forall_mem_cons.1 nonempty
    have behind := ih later
    rcases joinSpans_cons_cases span rest with ⟨rfl, alone⟩ | ⟨next, more, joined, step⟩
    · rw [alone]
      exact ⟨rfl, List.forall_mem_singleton.2 here, .singleton span⟩
    · rw [joined] at behind
      obtain ⟨first, chain⟩ := List.isChain_cons.1 behind.alternate
      obtain ⟨some, others⟩ := List.forall_mem_cons.1 behind.nonempty
      rw [List.flatMap_cons, ← behind.whole]
      rcases step with ⟨same, merged⟩ | ⟨differ, apart⟩
      · rw [merged]
        refine ⟨?_, List.forall_mem_cons.2 ⟨List.append_ne_nil_of_left_ne_nil here _, others⟩, ?_⟩
        · rw [List.flatMap_cons, List.flatMap_cons, List.append_assoc]
        · refine List.isChain_cons.2 ⟨fun other second => ?_, chain⟩
          exact same ▸ first other second
      · rw [apart]
        exact ⟨List.flatMap_cons, List.forall_mem_cons.2 ⟨here, behind.nonempty⟩,
          List.isChain_cons_cons.2 ⟨differ, behind.alternate⟩⟩

end Joined

end WordDiff

open WordDiff

/-- The spans are those of a best alignment, joined where neighbours are of one kind. -/
theorem wordDiff_eq (limit : Nat) (earlier updated : String) : wordDiff limit earlier updated =
    if limit < (tokens earlier.toList).length ∨ limit < (tokens updated.toList).length then []
    else joinSpans (Alignment.best (tokens earlier.toList) (tokens updated.toList)).spans := by
  rw [wordDiff]
  simp only [List.size_toArray]
  split
  · rfl
  · rw [walk_eq_foldl (Table.filledFrom_ofTokens _ _) (Nat.zero_le _), foldl_pushSpan_nil, bestFrom, List.drop_zero,
      List.drop_zero]

/-- Of two texts within the limit, the tokens that stay are a longest list of tokens in both, and all other
tokens of the updated text are new. -/
theorem wordDiff_longest {limit : Nat} {earlier updated : String} (short : (tokens earlier.toList).length ≤ limit)
    (short' : (tokens updated.toList).length ≤ limit) :
    let stay := (textsOf .unchanged (wordDiff limit earlier updated)).flatMap tokens
    let new := (textsOf .added (wordDiff limit earlier updated)).flatMap tokens
    stay.Sublist (tokens earlier.toList) ∧ stay.Sublist (tokens updated.toList) ∧
      (∀ common : List (List Char), common.Sublist (tokens earlier.toList) →
        common.Sublist (tokens updated.toList) →
        common.length ≤ stay.length) ∧ new.length + stay.length = (tokens updated.toList).length := by
  have aligned := Alignment.aligns_best (tokens earlier.toList) (tokens updated.toList)
  have cut : AreTokens ((Alignment.best (tokens earlier.toList) (tokens updated.toList)).spans.map Span.text) := by
    rw [aligned.texts]
    exact areTokens_tokens updated.toList
  have spans : wordDiff limit earlier updated =
      joinSpans (Alignment.best (tokens earlier.toList) (tokens updated.toList)).spans := by
    rw [wordDiff_eq, if_neg (by omega)]
  simp only [spans, tokens_joinSpans _ cut]
  refine ⟨aligned.common, ?_, ?_, ?_⟩
  · have inside := textsOf_sublist .unchanged (Alignment.best (tokens earlier.toList) (tokens updated.toList)).spans
    rwa [aligned.texts] at inside
  · intro common left right
    rw [aligned.count]
    exact aligned.longest common left right
  · have texts := congrArg List.length aligned.texts
    rw [List.length_map] at texts
    rw [length_textsOf, texts]

/-- A word is replaced, and a blank in front of it is doubled: of seven tokens, five stay. -/
theorem wordDiff_longest_replaced :
    let stay := (textsOf .unchanged (wordDiff 7 "a b c d" "a  x c d")).flatMap tokens
    stay.length = 5 ∧ ∀ common : List (List Char), common.Sublist (tokens "a b c d".toList) →
      common.Sublist (tokens "a  x c d".toList) → common.length ≤ 5 := by
  have count : ((textsOf .unchanged (wordDiff 7 "a b c d" "a  x c d")).flatMap tokens).length = 5 := by
    rw [wordDiff_eq]
    decide
  obtain ⟨_, _, longest, _⟩ := @wordDiff_longest 7 "a b c d" "a  x c d" (by decide) (by decide)
  rw [count] at longest
  exact ⟨count, longest⟩

/-- Texts of more runs than the limit give no spans. Of all others, the spans are the updated text without a loss,
whatever was removed. -/
theorem wordDiff_lossless (limit : Nat) (earlier updated : String) :
    AreRuns (tokens earlier.toList) earlier.toList ∧ AreRuns (tokens updated.toList) updated.toList ∧
      if limit < (tokens earlier.toList).length ∨ limit < (tokens updated.toList).length then
        wordDiff limit earlier updated = []
      else Covers (wordDiff limit earlier updated) updated.toList := by
  refine ⟨areRuns_tokens _, areRuns_tokens _, ?_⟩
  split
  · rename_i long
    rw [wordDiff_eq, if_pos long]
  · rename_i short
    have texts := (Alignment.aligns_best (tokens earlier.toList) (tokens updated.toList)).texts
    have runs := areRuns_tokens updated.toList
    have nonempty : ∀ span ∈ (Alignment.best (tokens earlier.toList) (tokens updated.toList)).spans,
      span.text ≠ [] := by
      intro span member
      refine runs.nonempty span.text ?_
      rw [← texts]
      exact List.mem_map_of_mem member
    have covers := covers_joinSpans nonempty
    rw [List.flatMap_def, texts, runs.whole] at covers
    rw [wordDiff_eq, if_neg short]
    exact covers

end ComponentMarkdown
