import ComponentMarkdown.Markup.Writer
import Mathlib.Data.List.Basic

namespace ComponentMarkdown.CodeFence

/-- So many backticks. -/
def ticks (n : Nat) : List Char := List.replicate n backtick

/-- Backticks between two texts are a run of their own: no more of them stand on either side. -/
structure IsRun (before : List Char) (n : Nat) (after : List Char) : Prop where
  pos : 0 < n
  start : before.getLast? ≠ some backtick
  stop : after.head? ≠ some backtick

/-- A text holds a run of exactly so many backticks. -/
def HoldsRun (n : Nat) (text : List Char) : Prop :=
  ∃ before after, text = before ++ (ticks n ++ after) ∧ IsRun before n after

/-- What is written behind a text is a code span: at most a blank stands in front, a run of backticks opens the
span, and the first run of just as many that follows is the end of it all. -/
structure IsSpan (written appended : List Char) (n : Nat) (gap inside : List Char) : Prop where
  blank : gap = [] ∨ gap = [' ']
  text : appended = gap ++ (ticks n ++ (inside ++ ticks n))
  opens : IsRun (written ++ gap) n (inside ++ ticks n)
  closes : IsRun inside n []
  first : ∀ before after, inside ++ ticks n = before ++ (ticks n ++ after) → IsRun before n after → after = []

section Ticks

variable {n m : Nat} {before after inside text : List Char}

theorem head?_ticks (pos : 0 < n) (after : List Char) : (ticks n ++ after).head? = some backtick := by
  obtain ⟨m, rfl⟩ := Nat.exists_eq_succ_of_ne_zero (Nat.ne_of_gt pos)
  rfl

theorem getLast?_ticks (pos : 0 < n) (before : List Char) : (before ++ ticks n).getLast? = some backtick := by
  obtain ⟨m, rfl⟩ := Nat.exists_eq_succ_of_ne_zero (Nat.ne_of_gt pos)
  rw [ticks, List.replicate_succ', ← List.append_assoc, List.getLast?_concat]

/-- How many backticks a text starts with is determined by the text. -/
theorem ticks_append_inj (same : ticks n ++ before = ticks m ++ after) (stop : before.head? ≠ some backtick)
    (stop' : after.head? ≠ some backtick) : n = m ∧ before = after := by
  induction n generalizing m with
  | zero =>
    cases m with
    | zero => exact ⟨rfl, same⟩
    | succ m =>
      refine absurd ?_ stop
      rw [show before = ticks (m + 1) ++ after from same]
      rfl
  | succ n ih =>
    cases m with
    | zero =>
      refine absurd ?_ stop'
      rw [show after = ticks (n + 1) ++ before from same.symm]
      rfl
    | succ m =>
      obtain ⟨count, rest⟩ := ih (List.cons.inj same).2
      exact ⟨congrArg (· + 1) count, rest⟩

theorem HoldsRun.mem (holds : HoldsRun n text) : backtick ∈ text := by
  obtain ⟨before, after, rfl, run⟩ := holds
  have inside := List.mem_of_mem_head? (head?_ticks run.pos after)
  exact List.mem_append_right before inside

/-- A run of so many backticks at the end of a text is the first one exactly if the text in front holds none. -/
theorem first_iff (closes : IsRun inside n []) :
    (∀ before after, inside ++ ticks n = before ++ (ticks n ++ after) → IsRun before n after → after = []) ↔
      ¬ HoldsRun n inside := by
  constructor
  · rintro first ⟨before, after, rfl, run⟩
    have behind : after ≠ [] := by
      rintro rfl
      refine closes.start ?_
      rw [List.append_nil, getLast?_ticks run.pos]
    have stop : (after ++ ticks n).head? ≠ some backtick := by
      rw [List.head?_append_of_ne_nil _ behind]
      exact run.stop
    have ended := first before (after ++ ticks n) (by simp only [List.append_assoc]) ⟨run.pos, run.start, stop⟩
    exact behind (List.append_eq_nil_iff.1 ended).1
  · intro apart before after same run
    rw [← List.append_assoc] at same
    rcases List.append_eq_append_iff.1 same with ⟨more, front, back⟩ | ⟨more, front, back⟩
    · -- The run reaches into the backticks at the end, so nothing but backticks can follow it.
      cases after with
      | nil => rfl
      | cons c rest =>
        have tick : c ∈ ticks n := by
          rw [back]
          simp
        exact absurd (congrArg some (List.eq_of_mem_replicate tick)) run.stop
    · refine absurd ⟨before, more, ?_, run.pos, run.start, ?_⟩ apart
      · rw [front, List.append_assoc]
      · cases more with
        | nil =>
          have stop := run.stop
          rw [back, ← List.append_nil (ticks n), List.nil_append, head?_ticks run.pos] at stop
          exact absurd rfl stop
        | cons c rest =>
          have stop := run.stop
          rwa [back] at stop

/-- Other characters around a text add no run and take none away. -/
theorem holdsRun_between {c d : Char} (front : c ≠ backtick) (back : d ≠ backtick) :
    HoldsRun n (c :: (text ++ [d])) ↔ HoldsRun n text := by
  constructor
  · rintro ⟨before, after, same, run⟩
    obtain ⟨more, rfl⟩ : ∃ more, before = c :: more := by
      cases before with
      | nil =>
        have first := head?_ticks run.pos after
        rw [List.nil_append] at same
        rw [← same] at first
        exact absurd (Option.some.inj first) front
      | cons e more => exact ⟨more, congrArg (· :: more) (List.cons.inj same).1.symm⟩
    replace same : text ++ [d] = more ++ (ticks n ++ after) := (List.cons.inj same).2
    rcases List.eq_nil_or_concat after with rfl | ⟨rest, e, rfl⟩
    · have last := getLast?_ticks run.pos more
      rw [List.append_nil] at same
      rw [← same, List.getLast?_concat] at last
      exact absurd (Option.some.inj last) back
    · rw [List.concat_eq_append, ← List.append_assoc, ← List.append_assoc] at same
      obtain ⟨whole, -⟩ := List.append_inj' same rfl
      refine ⟨more, rest, by rw [whole, List.append_assoc], run.pos, fun last => run.start ?_,
        fun first => run.stop ?_⟩
      · rw [List.getLast?_cons, last]
        rfl
      · rw [List.concat_eq_append, List.head?_append, first]
        rfl
  · rintro ⟨before, after, rfl, run⟩
    refine ⟨c :: before, after ++ [d], by simp, run.pos, ?_, ?_⟩
    · rw [List.getLast?_cons]
      cases last : before.getLast? with
      | none => simpa using front
      | some e => simpa [last] using run.start
    · rw [List.head?_append]
      cases first : after.head? with
      | none => simpa using back
      | some e => simpa [first] using run.stop

end Ticks

section Span

variable {n m : Nat} {written appended gap inside code : List Char}

/-- What keeps a span apart from a backtick before it. -/
def gapBehind (written : List Char) : List Char := if Writer.endsInBacktick false written then [' '] else []

theorem gapBehind_cases (written : List Char) : gapBehind written = [] ∨ gapBehind written = [' '] := by
  rw [gapBehind]
  split
  · exact Or.inr rfl
  · exact Or.inl rfl

theorem getLast?_gapBehind (written : List Char) : (written ++ gapBehind written).getLast? ≠ some backtick := by
  rw [gapBehind]
  split
  · rw [List.getLast?_concat]
    decide
  · rename_i apart
    rw [List.append_nil]
    intro last
    simp [Writer.endsInBacktick, last] at apart

/-- How a span opens is determined by what is written. -/
theorem IsSpan.open_unique (span : IsSpan written appended n gap inside) {gap' rest : List Char}
    (blank : gap' = [] ∨ gap' = [' ']) (text : appended = gap' ++ (ticks m ++ rest)) (pos : 0 < m)
    (stop : rest.head? ≠ some backtick) : n = m ∧ inside ++ ticks n = rest := by
  have same := span.text.symm.trans text
  have first := head?_ticks span.opens.pos (inside ++ ticks n)
  have first' := head?_ticks pos rest
  -- A blank is no backtick, so it stands in front of both or of neither.
  rcases span.blank with rfl | rfl <;> rcases blank with rfl | rfl
  · exact ticks_append_inj same span.opens.stop stop
  · rw [List.nil_append] at same
    rw [same] at first
    exact absurd (Option.some.inj first) (by decide)
  · rw [List.nil_append] at same
    rw [← same] at first'
    exact absurd (Option.some.inj first') (by decide)
  · exact ticks_append_inj (List.cons.inj same).2 span.opens.stop stop

theorem writeSpan_of_not_mem (apart : backtick ∉ code) (written : List Char) :
    writeSpan (Writer.endsInBacktick false written) code = gapBehind written ++ (ticks 1 ++ (code ++ ticks 1)) := by
  rw [writeSpan, if_neg apart]
  rfl

theorem writeSpan_of_mem (inside : backtick ∈ code) (written : List Char) :
    writeSpan (Writer.endsInBacktick false written) code =
      gapBehind written ++ (ticks 2 ++ (' ' :: (code ++ [' ']) ++ ticks 2)) := by
  rw [writeSpan, if_pos inside, List.append_assoc]
  simp [gapBehind, ticks, List.replicate]

theorem head?_append_ticks_of_not_mem (content : code ≠ []) (apart : backtick ∉ code) :
    (code ++ ticks 1).head? ≠ some backtick := by
  rw [List.head?_append_of_ne_nil _ content]
  exact fun first => apart (List.mem_of_mem_head? first)

/-- Code without backticks stands between two of them, which are the only ones. -/
theorem isSpan_of_not_mem (content : code ≠ []) (apart : backtick ∉ code) (written : List Char) :
    IsSpan written (writeSpan (Writer.endsInBacktick false written) code) 1 (gapBehind written) code := by
  have closes : IsRun code 1 [] := ⟨Nat.one_pos, fun last => apart (List.mem_of_getLast? last), by simp⟩
  have opens := head?_append_ticks_of_not_mem content apart
  exact ⟨gapBehind_cases written, writeSpan_of_not_mem apart written,
    ⟨Nat.one_pos, getLast?_gapBehind written, opens⟩, closes, (first_iff closes).2 fun holds => apart holds.mem⟩

/-- Nothing stands between the two backticks that are written for no code, so they are one run. -/
theorem not_isSpan_nil : ¬ IsSpan written (writeSpan (Writer.endsInBacktick false written) []) n gap inside := by
  intro span
  have pair : writeSpan (Writer.endsInBacktick false written) [] = gapBehind written ++ (ticks 2 ++ []) := rfl
  obtain ⟨-, rest⟩ := span.open_unique (gapBehind_cases written) pair Nat.two_pos (by simp)
  have last := getLast?_ticks span.opens.pos inside
  rw [rest] at last
  cases last

theorem IsSpan.inside_of_not_mem (apart : backtick ∉ code)
    (span : IsSpan written (writeSpan (Writer.endsInBacktick false written) code) n gap inside) :
    inside = code := by
  by_cases content : code = []
  · subst content
    exact absurd span not_isSpan_nil
  · obtain ⟨rfl, rest⟩ :=
      span.open_unique (gapBehind_cases written) (writeSpan_of_not_mem apart written) Nat.one_pos
      (head?_append_ticks_of_not_mem content apart)
    exact List.append_cancel_right rest

theorem IsSpan.inside_of_mem (member : backtick ∈ code)
    (span : IsSpan written (writeSpan (Writer.endsInBacktick false written) code) n gap inside) :
    n = 2 ∧ inside = ' ' :: (code ++ [' ']) := by
  obtain ⟨rfl, rest⟩ := span.open_unique (gapBehind_cases written) (writeSpan_of_mem member written) Nat.two_pos
    (by simp [backtick])
  exact ⟨rfl, List.append_cancel_right rest⟩

/-- Code with backticks is closed where it was meant to be exactly if it holds no run of two. -/
theorem isSpan_iff_of_mem (member : backtick ∈ code) (written : List Char) :
    (∃ n gap inside, IsSpan written (writeSpan (Writer.endsInBacktick false written) code) n gap inside) ↔
      ¬ HoldsRun 2 code := by
  have padded : HoldsRun 2 (' ' :: (code ++ [' '])) ↔ HoldsRun 2 code := holdsRun_between (by decide) (by decide)
  have closes : IsRun (' ' :: (code ++ [' '])) 2 [] := by
    refine ⟨Nat.two_pos, ?_, by simp⟩
    rw [← List.cons_append, List.getLast?_concat]
    decide
  rw [← padded, ← first_iff closes]
  constructor
  · rintro ⟨n, gap, inside, span⟩
    obtain ⟨rfl, rfl⟩ := span.inside_of_mem member
    exact span.first
  · intro first
    exact ⟨2, _, _, gapBehind_cases written, writeSpan_of_mem member written,
      ⟨Nat.two_pos, getLast?_gapBehind written, by simp [backtick]⟩, closes, first⟩

/-- What is written for code is a code span, behind whatever was written before, exactly if the code is not empty
and holds no run of two backticks. Between the backticks of the span stands the code, with a blank on either side
if it holds backticks itself. -/
theorem isSpan_writeSpan_iff (written code : List Char) :
    ((∃ n gap inside, IsSpan written (writeSpan (Writer.endsInBacktick false written) code) n gap inside) ↔
      code ≠ [] ∧ ¬ HoldsRun 2 code) ∧
    ∀ n gap inside, IsSpan written (writeSpan (Writer.endsInBacktick false written) code) n gap inside →
      inside = if backtick ∈ code then ' ' :: (code ++ [' ']) else code := by
  by_cases member : backtick ∈ code
  · rw [isSpan_iff_of_mem member, if_pos member]
    have content := List.ne_nil_of_mem member
    exact ⟨⟨fun apart => ⟨content, apart⟩, And.right⟩, fun n gap inside span => (span.inside_of_mem member).2⟩
  · rw [if_neg member]
    refine ⟨⟨?_, ?_⟩, fun n gap inside span => span.inside_of_not_mem member⟩
    · rintro ⟨n, gap, inside, span⟩
      refine ⟨?_, fun holds => member holds.mem⟩
      rintro rfl
      exact not_isSpan_nil span
    · rintro ⟨content, -⟩
      exact ⟨1, _, _, isSpan_of_not_mem content member written⟩

/-- Two backticks inside of code close the span that they stand in. -/
theorem not_isSpan_pair : ¬ ∃ n gap inside,
    IsSpan [] (writeSpan (Writer.endsInBacktick false []) "a``b".toList) n gap inside := by
  rw [isSpan_iff_of_mem (by decide), not_not]
  exact ⟨['a'], ['b'], rfl, Nat.two_pos, by decide, by decide⟩

end Span

end ComponentMarkdown.CodeFence
