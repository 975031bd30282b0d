import ComponentMarkdown.Text.Blank
import ComponentMarkdown.Text.Lines
import Mathlib.Data.List.TakeWhile

namespace ComponentMarkdown.Text

section Join

variable {separator : List Char}

theorem join_cons {part : List Char} {rest : List (List Char)} (some : rest ≠ []) :
    join separator (part :: rest) = part ++ separator ++ join separator rest := by
  cases rest with
  | nil => exact absurd rfl some
  | cons => rfl

theorem join_append {parts more : List (List Char)} (first : parts ≠ []) (second : more ≠ []) :
    join separator (parts ++ more) = join separator parts ++ separator ++ join separator more := by
  induction parts with
  | nil => exact absurd rfl first
  | cons part rest ih =>
    by_cases last : rest = []
    · subst last
      exact join_cons second
    · have some : rest ++ more ≠ [] := by simp [second]
      rw [List.cons_append, join_cons some, join_cons last, ih last]
      simp only [List.append_assoc]

theorem join_cons_eq_flatMap (separator part : List Char) (rest : List (List Char)) :
    join separator (part :: rest) = part ++ rest.flatMap (separator ++ ·) := by
  induction rest generalizing part with
  | nil => rw [join, List.flatMap_nil, List.append_nil]
  | cons next more ih => rw [join_cons (by simp), ih next, List.flatMap_cons, List.append_assoc, List.append_assoc]

/-- Parts that are put together group by group, with the same separator inside the groups as between them. -/
theorem join_map_join {groups : List (List (List Char))} (some : ∀ group ∈ groups, group ≠ []) :
    join separator (groups.map (join separator)) = join separator groups.flatten := by
  induction groups with
  | nil => rfl
  | cons group rest ih =>
    obtain ⟨here, below⟩ := List.forall_mem_cons.1 some
    by_cases last : rest = []
    · subst last
      rw [List.flatten_cons, List.flatten_nil, List.append_nil]
      rfl
    · have later : rest.flatten ≠ [] := by
        obtain ⟨next, more, rfl⟩ := List.exists_cons_of_ne_nil last
        have first := below next List.mem_cons_self
        simp [first]
      rw [List.map_cons, join_cons (by simpa using last), ih below, List.flatten_cons, join_append here later]

theorem join_ne_nil_of_mem {parts : List (List Char)} {part : List Char} (member : part ∈ parts)
    (some : part ≠ []) : join separator parts ≠ [] := by
  induction parts with
  | nil => cases member
  | cons first rest ih =>
    by_cases last : rest = []
    · subst last
      rw [List.mem_singleton] at member
      rwa [join, ← member]
    · rw [join_cons last]
      rcases List.mem_cons.1 member with rfl | later
      · simp [some]
      · simp [ih later]

theorem not_mem_join {c : Char} {parts : List (List Char)} (outside : c ∉ separator)
    (none : ∀ part ∈ parts, c ∉ part) : c ∉ join separator parts := by
  induction parts with
  | nil => simp [join]
  | cons part rest ih =>
    obtain ⟨here, below⟩ := List.forall_mem_cons.1 none
    by_cases last : rest = []
    · subst last
      exact here
    · rw [join_cons last]
      simp only [List.mem_append, not_or]
      exact ⟨⟨here, outside⟩, ih below⟩

end Join

section SplitOn

variable {separator : Char}

theorem splitOn_of_not_mem {s : List Char} (none : separator ∉ s) : splitOn separator s = [s] := by
  induction s with
  | nil => rfl
  | cons c rest ih =>
    rw [List.mem_cons, not_or] at none
    rw [splitOn, if_neg (Ne.symm none.1), ih none.2]

theorem splitOn_append {s : List Char} (none : separator ∉ s) (rest : List Char) :
    splitOn separator (s ++ separator :: rest) = s :: splitOn separator rest := by
  induction s with
  | nil => rw [List.nil_append, splitOn, if_pos rfl]
  | cons c more ih =>
    rw [List.mem_cons, not_or] at none
    rw [List.cons_append, splitOn, if_neg (Ne.symm none.1), ih none.2]

/-- A separator splits what stands in front of it from what stands behind it. -/
theorem splitOn_append_cons (s rest : List Char) :
    splitOn separator (s ++ separator :: rest) = splitOn separator s ++ splitOn separator rest := by
  induction s with
  | nil => simp only [List.nil_append, splitOn, if_true, List.singleton_append]
  | cons c more ih =>
    rw [List.cons_append, splitOn, splitOn, ih]
    split
    · rw [List.cons_append]
    · obtain ⟨part, parts, same⟩ := List.exists_cons_of_ne_nil (splitOn_ne_nil separator more)
      simp only [same, List.cons_append]

theorem infix_join_of_mem {sep part : List Char} {parts : List (List Char)} (member : part ∈ parts) :
    part <:+: join sep parts := by
  obtain ⟨front, back, rfl⟩ := List.append_of_mem member
  induction front with
  | nil =>
    rw [List.nil_append, join_cons_eq_flatMap]
    exact (List.prefix_append _ _).isInfix
  | cons first more ih =>
    rw [List.cons_append, join_cons (by simp)]
    exact (ih (by simp)).trans (List.suffix_append _ _).isInfix

theorem infix_of_mem_splitOn {s part : List Char} (member : part ∈ splitOn separator s) : part <:+: s := by
  have inside : part <:+: join [separator] (splitOn separator s) := infix_join_of_mem member
  rwa [join_splitOn] at inside

theorem not_mem_of_mem_splitOn {s part : List Char} (member : part ∈ splitOn separator s) : separator ∉ part := by
  induction s generalizing part with
  | nil =>
    rw [splitOn, List.mem_singleton] at member
    simp [member]
  | cons c rest ih =>
    obtain ⟨first, more, same⟩ := List.exists_cons_of_ne_nil (splitOn_ne_nil separator rest)
    simp only [splitOn, same] at member ih
    split at member
    · rcases List.mem_cons.1 member with rfl | later
      · simp
      · exact ih later
    · rename_i other
      rcases List.mem_cons.1 member with rfl | later
      · have outside := ih List.mem_cons_self
        simp [Ne.symm other, outside]
      · exact ih (List.mem_cons_of_mem _ later)

theorem splitOn_append_of_not_mem {s : List Char} (none : separator ∉ s) {rest first : List Char}
    {more : List (List Char)} (parts : splitOn separator rest = first :: more) :
    splitOn separator (s ++ rest) = (s ++ first) :: more := by
  induction s with
  | nil => exact parts
  | cons c front ih =>
    rw [List.mem_cons, not_or] at none
    rw [List.cons_append, splitOn, if_neg (Ne.symm none.1), ih none.2]
    rfl

/-- Parts without the separator are what splitting them apart gives. -/
theorem splitOn_join {parts : List (List Char)} (some : parts ≠ []) (none : ∀ part ∈ parts, separator ∉ part) :
    splitOn separator (join [separator] parts) = parts := by
  induction parts with
  | nil => exact absurd rfl some
  | cons part rest ih =>
    obtain ⟨here, below⟩ := List.forall_mem_cons.1 none
    by_cases last : rest = []
    · subst last
      exact splitOn_of_not_mem here
    · rw [join_cons last, List.append_assoc, List.singleton_append, splitOn_append here, ih last below]

theorem head?_of_splitOn {s line : List Char} {more : List (List Char)} (parts : splitOn separator s = line :: more)
    {c : Char} (first : line.head? = some c) : s.head? = some c := by
  cases s with
  | nil =>
    cases parts
    cases first
  | cons d rest =>
    rw [splitOn] at parts
    split at parts
    · cases parts
      cases first
    · split at parts <;> (cases parts; exact first)

end SplitOn

theorem head?_dropReturn {line : List Char} {c : Char} (first : (dropReturn line).head? = some c) :
    line.head? = some c := by
  rw [dropReturn] at first
  split at first
  · rw [List.head?_dropLast] at first
    split at first
    · exact first
    · cases first
  · exact first

theorem linesOfParts_append (parts : List (List Char)) {rest : List (List Char)} (some : rest ≠ []) :
    linesOfParts (parts ++ rest) = parts.map dropReturn ++ linesOfParts rest := by
  induction parts with
  | nil => rfl
  | cons part more ih =>
    obtain ⟨next, others, same⟩ := List.exists_cons_of_ne_nil (by simp [some] : more ++ rest ≠ [])
    rw [List.cons_append, List.map_cons, List.cons_append, ← ih, same, linesOfParts]
    · simp
    · simp

theorem linesOfParts_concat (parts : List (List Char)) : linesOfParts (parts ++ [[]]) = parts.map dropReturn := by
  rw [linesOfParts_append parts (by simp), linesOfParts, List.append_nil]

/-- The lines of a text above another text. -/
theorem lines_append (s rest : List Char) :
    lines (s ++ '\n' :: rest) = (splitOn '\n' s).map dropReturn ++ lines rest := by
  rw [lines, splitOn_append_cons, linesOfParts_append _ (splitOn_ne_nil _ _), lines]

theorem lines_concat (s : List Char) : lines (s ++ ['\n']) = (splitOn '\n' s).map dropReturn := by
  rw [lines_append, lines, splitOn, linesOfParts, List.append_nil]

theorem dropReturn_prefix (line : List Char) : dropReturn line <+: line := by
  rw [dropReturn]
  split
  · exact List.dropLast_prefix line
  · exact List.prefix_rfl

theorem dropReturn_of_ne {line : List Char} (plain : line.getLast? ≠ some '\r') : dropReturn line = line := by
  rw [dropReturn, if_neg plain]

theorem dropReturn_append {s : List Char} (solid : s.getLast? ≠ some '\r') (line : List Char) :
    dropReturn (s ++ line) = s ++ dropReturn line := by
  rcases List.eq_nil_or_concat line with rfl | ⟨front, c, rfl⟩
  · have nil : dropReturn [] = [] := rfl
    rw [List.append_nil, dropReturn_of_ne solid, nil, List.append_nil]
  · rw [List.concat_eq_append, dropReturn, dropReturn, ← List.append_assoc,
      List.getLast?_concat, List.getLast?_concat, List.dropLast_concat, List.dropLast_concat]
    split
    · rfl
    · rw [List.append_assoc]

/-- Lines that are written one below the other are read as these lines. -/
theorem lines_join {parts : List (List Char)} (some : parts ≠ []) (none : ∀ part ∈ parts, '\n' ∉ part)
    (plain : ∀ part ∈ parts, part.getLast? ≠ Option.some '\r') : lines (join ['\n'] parts ++ ['\n']) = parts := by
  have whole : join ['\n'] parts ++ ['\n'] = join ['\n'] (parts ++ [[]]) := by
    rw [join_append some (by simp), join, List.append_nil]
  have split := @splitOn_join '\n' (parts ++ [[]]) (by simp)
    (List.forall_mem_append.2 ⟨none, List.forall_mem_singleton.2 (by simp)⟩)
  have kept : parts.map dropReturn = parts.map id :=
    List.map_congr_left fun part member => dropReturn_of_ne (plain part member)
  rw [whole, lines, split, linesOfParts_concat, kept, List.map_id]

section Stop

variable {p : Char → Bool} {s tail : List Char}

theorem takeWhile_append_stop (all : ∀ c ∈ s, p c = true) (stop : ∀ c ∈ tail.head?, p c = false) :
    (s ++ tail).takeWhile p = s := by
  rw [List.takeWhile_append_of_pos all]
  cases tail with
  | nil => rw [List.takeWhile_nil, List.append_nil]
  | cons c rest => rw [List.takeWhile_cons_of_neg (by simp [stop c rfl]), List.append_nil]

theorem dropWhile_append_stop (all : ∀ c ∈ s, p c = true) (stop : ∀ c ∈ tail.head?, p c = false) :
    (s ++ tail).dropWhile p = tail := by
  rw [List.dropWhile_append_of_pos all]
  cases tail with
  | nil => rfl
  | cons c rest => rw [List.dropWhile_cons_of_neg (by simp [stop c rfl])]

end Stop

section Trim

variable {s : List Char}

theorem trimStart_of_head {c : Char} {rest : List Char} (first : isBlank c = false) :
    trimStart (c :: rest) = c :: rest := by
  rw [trimStart, List.dropWhile_cons_of_neg (by simp [first])]

theorem trimEnd_of_getLast {c : Char} (last : isBlank c = false) : trimEnd (s ++ [c]) = s ++ [c] := by
  rw [trimEnd, dropEndWhile, List.reverse_append, List.reverse_singleton, List.singleton_append,
    List.dropWhile_cons_of_neg (by simp [last]), List.reverse_cons, List.reverse_reverse]

/-- A text between two characters that are not blank has no blanks around it. -/
theorem trim_between {first last : Char} (front : isBlank first = false) (back : isBlank last = false) :
    trim (first :: (s ++ [last])) = first :: (s ++ [last]) := by
  rw [trim, trimStart_of_head front, ← List.cons_append, trimEnd_of_getLast back]

theorem trimEnd_prefix_self (s : List Char) : trimEnd s <+: s := by
  have inside := List.reverse_prefix.2 (List.dropWhile_suffix isBlank (l := s.reverse))
  rwa [List.reverse_reverse] at inside

theorem trim_infix (s : List Char) : trim s <:+: s :=
  (trimEnd_prefix_self (trimStart s)).isInfix.trans (List.dropWhile_suffix _).isInfix

theorem trimEnd_append_blank {c : Char} (blank : isBlank c = true) (s : List Char) :
    trimEnd (s ++ [c]) = trimEnd s := by
  rw [trimEnd, dropEndWhile, List.reverse_append, List.reverse_singleton, List.singleton_append,
    List.dropWhile_cons_of_pos blank, trimEnd, dropEndWhile]

/-- Blanks around a text are trimmed off. -/
theorem trim_padded {first last : Char} (front : isBlank first = true) (back : isBlank last = true)
    (s : List Char) : trim (first :: (s ++ [last])) = trim s := by
  have start : trimStart (first :: (s ++ [last])) = trimStart (s ++ [last]) := List.dropWhile_cons_of_pos front
  rw [trim, start, trim, trimStart, trimStart, List.dropWhile_append]
  split
  · rename_i none
    rw [List.isEmpty_iff] at none
    rw [none, List.dropWhile_cons_of_pos back, List.dropWhile_nil]
  · exact trimEnd_append_blank back _

theorem trim_of_solid (solid : ∀ c ∈ s, isBlank c = false) : trim s = s := by
  have kept : ∀ t : List Char, (∀ c ∈ t, isBlank c = false) → t.dropWhile isBlank = t := by
    intro t solid
    cases t with
    | nil => rfl
    | cons c rest => rw [List.dropWhile_cons_of_neg (by simp [solid c List.mem_cons_self])]
  rw [trim, trimStart, kept s solid, trimEnd, dropEndWhile,
    kept _ fun c member => solid c (List.mem_reverse.1 member), List.reverse_reverse]

theorem isBlank_of_head?_trim {c : Char} (first : (trim s).head? = some c) : isBlank c = false := by
  have whole : (trimStart s).head? = some c := by
    obtain ⟨behind, same⟩ := trimEnd_prefix_self (trimStart s)
    rw [← same, ← trim, List.head?_append, first]
    rfl
  have solid := List.head?_dropWhile_not isBlank s
  rw [← trimStart, whole] at solid
  simpa using solid

theorem isBlank_of_getLast?_trim {c : Char} (last : (trim s).getLast? = some c) : isBlank c = false := by
  have solid := List.head?_dropWhile_not isBlank (trimStart s).reverse
  rw [trim, trimEnd, dropEndWhile, List.getLast?_reverse] at last
  rw [last] at solid
  simpa using solid

/-- Nothing is trimmed off a text that has no blank at its ends. -/
theorem trim_of_ends (first : ∀ c ∈ s.head?, isBlank c = false) (last : ∀ c ∈ s.getLast?, isBlank c = false) :
    trim s = s := by
  rcases List.eq_nil_or_concat s with rfl | ⟨front, c, rfl⟩
  · rfl
  · have start : trimStart (front.concat c) = front.concat c := by
      cases whole : front.concat c with
      | nil => rfl
      | cons d rest => exact trimStart_of_head (first d (by rw [whole]; rfl))
    rw [trim, start, List.concat_eq_append]
    exact trimEnd_of_getLast (last c (by simp))

theorem trim_trim (s : List Char) : trim (trim s) = trim s :=
  trim_of_ends (fun _ first => isBlank_of_head?_trim first) fun _ last => isBlank_of_getLast?_trim last

end Trim

theorem replaceChar_of_not_mem {c : Char} {s : List Char} (none : c ∉ s) (replacement : List Char) :
    replaceChar c replacement s = s := by
  induction s with
  | nil => rfl
  | cons d rest ih =>
    rw [List.mem_cons, not_or] at none
    have later := ih none.2
    rw [replaceChar] at later ⊢
    rw [List.flatMap_cons, later, if_neg (Ne.symm none.1), List.singleton_append]

theorem mem_wordsFrom {word s part : List Char} (solid : ∀ c ∈ word, isBlank c = false)
    (member : part ∈ wordsFrom word s) : part ≠ [] ∧ ∀ c ∈ part, isBlank c = false := by
  induction s generalizing word with
  | nil =>
    rw [wordsFrom] at member
    split at member
    · cases member
    · rename_i some
      rw [List.mem_singleton.1 member]
      exact ⟨by simpa using some, solid⟩
  | cons c rest ih =>
    rw [wordsFrom] at member
    split at member
    · split at member
      · exact ih (by simp) member
      · rename_i some
        rcases List.mem_cons.1 member with rfl | later
        · exact ⟨by simpa using some, solid⟩
        · exact ih (by simp) later
    · rename_i solidHere
      refine ih (List.forall_mem_append.2 ⟨solid, ?_⟩) member
      simpa using solidHere

theorem mem_words {s part : List Char} (member : part ∈ words s) : part ≠ [] ∧ ∀ c ∈ part, isBlank c = false :=
  mem_wordsFrom (by simp) member

theorem wordsFrom_subset {word s part : List Char} (member : part ∈ wordsFrom word s) : part ⊆ word ++ s := by
  induction s generalizing word with
  | nil =>
    rw [wordsFrom] at member
    split at member
    · cases member
    · rw [List.mem_singleton.1 member, List.append_nil]
      exact List.Subset.refl _
  | cons c rest ih =>
    have later : rest ⊆ word ++ c :: rest := fun d inside => List.mem_append_right _ (List.mem_cons_of_mem _ inside)
    rw [wordsFrom] at member
    split at member
    · split at member
      · exact List.Subset.trans (ih member) later
      · rcases List.mem_cons.1 member with rfl | behind
        · exact List.subset_append_left _ _
        · exact List.Subset.trans (ih behind) later
    · rw [← List.singleton_append, ← List.append_assoc]
      exact ih member

theorem words_subset {s part : List Char} (member : part ∈ words s) : part ⊆ s := wordsFrom_subset member

theorem wordsFrom_ne_nil {word s : List Char} (some : word ≠ [] ∨ allBlank s = false) : wordsFrom word s ≠ [] := by
  induction s generalizing word with
  | nil =>
    have here : word ≠ [] := some.resolve_right (by simp [allBlank])
    rw [wordsFrom, if_neg (by simpa using here)]
    simp
  | cons c rest ih =>
    rw [wordsFrom]
    split
    · rename_i blank
      split
      · rename_i none
        refine ih (Or.inr ?_)
        have later := some.resolve_left (by simpa using none)
        rwa [allBlank, List.all_cons, blank, Bool.true_and] at later
      · simp
    · exact ih (Or.inl (by simp))

theorem words_ne_nil {s : List Char} (some : allBlank s = false) : words s ≠ [] := wordsFrom_ne_nil (Or.inr some)

/-- Words do not reach over a blank. -/
theorem wordsFrom_append_blank {c : Char} (blank : isBlank c = true) (word s more : List Char) :
    wordsFrom word (s ++ c :: more) = wordsFrom word s ++ words more := by
  induction s generalizing word with
  | nil =>
    rw [List.nil_append, wordsFrom.eq_def word (c :: more), wordsFrom, words]
    simp only [blank, if_true]
    split <;> rfl
  | cons d rest ih =>
    rw [List.cons_append, wordsFrom, wordsFrom]
    split
    · split
      · exact ih []
      · rw [ih [], List.cons_append]
    · exact ih _

theorem words_append_blank {c : Char} (blank : isBlank c = true) (s more : List Char) :
    words (s ++ c :: more) = words s ++ words more := wordsFrom_append_blank blank [] s more

theorem wordsFrom_of_solid {s : List Char} (solid : ∀ c ∈ s, isBlank c = false) {word : List Char}
    (some : word ++ s ≠ []) : wordsFrom word s = [word ++ s] := by
  induction s generalizing word with
  | nil =>
    rw [List.append_nil] at some ⊢
    rw [wordsFrom, if_neg (by simpa using some)]
  | cons c rest ih =>
    obtain ⟨here, below⟩ := List.forall_mem_cons.1 solid
    rw [wordsFrom, if_neg (by simp [here]), ih below (by simp), List.append_assoc, List.singleton_append]

theorem words_of_solid {s : List Char} (solid : ∀ c ∈ s, isBlank c = false) (some : s ≠ []) : words s = [s] :=
  wordsFrom_of_solid solid some

/-- Words with single blanks between them are read as these words. -/
theorem words_join {parts : List (List Char)} (solid : ∀ part ∈ parts, part ≠ [] ∧ ∀ c ∈ part, isBlank c = false) :
    words (join [' '] parts) = parts := by
  induction parts with
  | nil => rfl
  | cons part rest ih =>
    obtain ⟨⟨some, here⟩, below⟩ := List.forall_mem_cons.1 solid
    by_cases last : rest = []
    · subst last
      exact words_of_solid here some
    · rw [join_cons last, List.append_assoc, List.singleton_append, words_append_blank (by decide),
        words_of_solid here some, ih below, List.singleton_append]

end ComponentMarkdown.Text
