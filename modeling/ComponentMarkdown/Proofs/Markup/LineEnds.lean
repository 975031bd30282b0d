import ComponentMarkdown.Markup.Component
import ComponentMarkdown.Proofs.Text

namespace ComponentMarkdown

namespace Text

/-- A text with a carriage return in front of every line feed. -/
def withReturns (s : List Char) : List Char := replaceChar '\n' ['\r', '\n'] s

/-- Lines with a carriage return at the end of each but the last. -/
def returned : List (List Char) → List (List Char)
  | [] => []
  | [last] => [last]
  | line :: rest => (line ++ ['\r']) :: returned rest

theorem returned_cons (line : List Char) {rest : List (List Char)} (some : rest ≠ []) :
    returned (line :: rest) = (line ++ ['\r']) :: returned rest := by
  rw [returned]
  exact some

theorem returned_isEmpty (lines : List (List Char)) : (returned lines).isEmpty = lines.isEmpty := by
  cases lines with
  | nil => rfl
  | cons line rest =>
    cases rest with
    | nil => rfl
    | cons => rfl

theorem returned_ne_nil {lines : List (List Char)} (some : lines ≠ []) : returned lines ≠ [] := by
  rw [← List.isEmpty_eq_false_iff, returned_isEmpty, List.isEmpty_eq_false_iff]
  exact some

/-- Lines that have no line end in them. -/
def AreLines (lines : List (List Char)) : Prop := ∀ line ∈ lines, '\n' ∉ line ∧ '\r' ∉ line

theorem areLines_splitOn {s : List Char} (plain : '\r' ∉ s) : AreLines (splitOn '\n' s) := fun _ member =>
  ⟨not_mem_of_mem_splitOn member, fun inside => plain ((infix_of_mem_splitOn member).subset inside)⟩

theorem AreLines.not_mem_join {lines : List (List Char)} (plain : AreLines lines) : '\r' ∉ join ['\n'] lines :=
  Text.not_mem_join (by decide) fun line member => (plain line member).2

theorem dropReturn_of_not_mem {line : List Char} (plain : '\r' ∉ line) : dropReturn line = line :=
  dropReturn_of_ne fun last => plain (List.mem_of_getLast? last)

theorem dropReturn_concat (line : List Char) : dropReturn (line ++ ['\r']) = line := by
  rw [dropReturn, List.getLast?_concat, if_pos rfl, List.dropLast_concat]

theorem not_mem_returned {lines : List (List Char)} (plain : AreLines lines) :
    ∀ line ∈ returned lines, '\n' ∉ line := by
  induction lines with
  | nil => simp [returned]
  | cons first rest ih =>
    obtain ⟨here, below⟩ := List.forall_mem_cons.1 plain
    by_cases last : rest = []
    · subst last
      exact List.forall_mem_singleton.2 here.1
    · rw [returned_cons first last, List.forall_mem_cons]
      exact ⟨by simp [here.1], ih below⟩

/-- Carriage returns in front of the line feeds of a text are carriage returns at the ends of its lines. -/
theorem withReturns_join {lines : List (List Char)} (plain : AreLines lines) :
    withReturns (join ['\n'] lines) = join ['\n'] (returned lines) := by
  have apart : ∀ s t, withReturns (s ++ t) = withReturns s ++ withReturns t := fun s t => List.flatMap_append
  induction lines with
  | nil => rfl
  | cons first rest ih =>
    obtain ⟨here, below⟩ := List.forall_mem_cons.1 plain
    have kept : withReturns first = first := replaceChar_of_not_mem here.1 _
    by_cases last : rest = []
    · subst last
      exact kept
    · have feed : withReturns ['\n'] = ['\r', '\n'] := rfl
      rw [returned_cons first last, join_cons last, join_cons (returned_ne_nil last), apart, apart, ih below, kept,
        feed]
      simp only [List.append_assoc, List.cons_append, List.nil_append]

theorem splitOn_withReturns {s : List Char} (plain : '\r' ∉ s) :
    splitOn '\n' (withReturns s) = returned (splitOn '\n' s) := by
  have lines := areLines_splitOn plain
  have whole := withReturns_join lines
  rw [join_splitOn] at whole
  rw [whole, splitOn_join (returned_ne_nil (splitOn_ne_nil _ _)) (not_mem_returned lines)]

/-- Lines of which each one has a carriage return at its end are those of which the last has none, with one more. -/
theorem join_map_concat {lines : List (List Char)} (some : lines ≠ []) :
    join ['\n'] (lines.map (· ++ ['\r'])) = join ['\n'] (returned lines) ++ ['\r'] := by
  induction lines with
  | nil => exact absurd rfl some
  | cons first rest ih =>
    by_cases last : rest = []
    · subst last
      rfl
    · rw [List.map_cons, join_cons (by simpa using last), returned_cons first last,
        join_cons (returned_ne_nil last), ih last]
      simp only [List.append_assoc]

theorem join_suffix (front back : List (List Char)) : join ['\n'] back <:+ join ['\n'] (front ++ back) := by
  by_cases none : back = []
  · subst none
    exact List.nil_suffix
  · induction front with
    | nil => exact List.suffix_rfl
    | cons first rest ih =>
      rw [List.cons_append, join_cons (by simp [none])]
      exact ih.trans (List.suffix_append _ _)

theorem linesOfParts_returned {lines : List (List Char)} (plain : AreLines lines) :
    linesOfParts (returned lines) = linesOfParts lines := by
  induction lines with
  | nil => rfl
  | cons first rest ih =>
    obtain ⟨here, below⟩ := List.forall_mem_cons.1 plain
    by_cases last : rest = []
    · subst last
      rfl
    · have front := linesOfParts_append [first] last
      have front' := linesOfParts_append [first ++ ['\r']] (returned_ne_nil last)
      rw [List.map_singleton, List.singleton_append] at front front'
      rw [returned_cons first last, front, front', ih below, dropReturn_concat, dropReturn_of_not_mem here.2]

/-- The lines of a text do not depend on its line ends. -/
theorem lines_withReturns {s : List Char} (plain : '\r' ∉ s) : lines (withReturns s) = lines s := by
  rw [lines, splitOn_withReturns plain, linesOfParts_returned (areLines_splitOn plain), lines]

end Text

namespace Frontmatter

open Text (withReturns returned AreLines)

/-- The same cut with a carriage return in front of every line feed. -/
def Split.withReturns (split : Split) : Split where
  yaml := split.yaml.map fun yaml => String.ofList (Text.withReturns yaml.toList)
  body := String.ofList (Text.withReturns split.body.toList)

theorem isMark_concat {line : List Char} (plain : '\r' ∉ line) :
    isMark true (line ++ ['\r']) = isMark true line := by
  simp only [isMark, if_true, Text.dropReturn_concat, Text.dropReturn_of_not_mem plain]

theorem lazily_mark?_nil : lazily mark? [] = none := rfl

/-- The lines in front of the first mark, and the lines behind it. -/
theorem lazily_mark?_cons (line : List Char) (rest : List (List Char)) : lazily mark? (line :: rest) =
    if isMark (!rest.isEmpty) line then some ([], rest)
    else (lazily mark? rest).map fun (before, after) => (line :: before, after) := by
  rw [lazily, mark?]
  cases isMark (!rest.isEmpty) line with
  | true => rfl
  | false => rfl

/-- The first line behind the opening mark belongs to the block even when it is a mark itself, if another mark
follows. -/
theorem block?_cons (first : List Char) (rest : List (List Char)) : block? (first :: rest) =
    match lazily mark? rest with
    | some (before, after) => some (textOf (first :: before), joined after)
    | none => if isMark (!rest.isEmpty) first then some ([], joined rest) else none := by
  rw [block?, optionalGroup?, group?, mark?]
  cases lazily mark? rest with
  | some parts => rfl
  | none => split <;> rfl

theorem exists_mark_of_lazily {lines before after : List (List Char)}
    (found : lazily mark? lines = some (before, after)) :
    ∃ mark, lines = before ++ mark :: after := by
  induction lines generalizing before with
  | nil => cases found
  | cons line rest ih =>
    rw [lazily_mark?_cons] at found
    split at found
    · cases found
      exact ⟨line, rfl⟩
    · obtain ⟨⟨front, back⟩, later, same⟩ := Option.map_eq_some_iff.1 found
      cases same
      obtain ⟨mark, rfl⟩ := ih later
      exact ⟨mark, rfl⟩

theorem lazily_mark?_returned {lines : List (List Char)} (plain : AreLines lines) :
    lazily mark? (returned lines) =
      (lazily mark? lines).map fun (before, after) => (before.map (· ++ ['\r']), returned after) := by
  induction lines with
  | nil => rfl
  | cons line rest ih =>
    obtain ⟨here, below⟩ := List.forall_mem_cons.1 plain
    by_cases last : rest = []
    · subst last
      rw [returned, lazily_mark?_cons]
      split <;> rfl
    · have more : (!rest.isEmpty) = true := by simpa using last
      rw [Text.returned_cons line last, lazily_mark?_cons, lazily_mark?_cons, Text.returned_isEmpty, more,
        isMark_concat here.2, ih below]
      split
      · rfl
      · rw [Option.map_map, Option.map_map]
        rfl

/-- The block of lines is found in the same place, whatever ends the lines. -/
theorem block?_returned {lines : List (List Char)} (plain : AreLines lines) :
    block? (returned lines) = (block? lines).map fun (yaml, body) => (withReturns yaml, withReturns body) := by
  cases lines with
  | nil => rfl
  | cons first rest =>
    obtain ⟨here, below⟩ := List.forall_mem_cons.1 plain
    by_cases last : rest = []
    · subst last
      rw [returned, block?_cons, lazily_mark?_nil]
      simp only
      split <;> rfl
    · rw [Text.returned_cons first last, block?_cons, block?_cons, lazily_mark?_returned below]
      cases found : lazily mark? rest with
      | none =>
        have more : (!rest.isEmpty) = true := by simpa using last
        simp only [Option.map_none, Text.returned_isEmpty, more, isMark_concat here.2]
        split
        · rw [Option.map_some, joined, joined, Text.withReturns_join below]
          rfl
        · rfl
      | some parts =>
        obtain ⟨before, after⟩ := parts
        obtain ⟨mark, rfl⟩ := exists_mark_of_lazily found
        obtain ⟨front, back⟩ := List.forall_mem_append.1 below
        have block : AreLines (first :: before) := List.forall_mem_cons.2 ⟨here, front⟩
        have body : AreLines after := (List.forall_mem_cons.1 back).2
        have ends := Text.join_map_concat (List.cons_ne_nil first before)
        rw [List.map_cons] at ends
        simp only [Option.map_some, textOf, joined, ends, Text.dropReturn_concat,
          Text.dropReturn_of_not_mem block.not_mem_join, Text.withReturns_join block, Text.withReturns_join body]

theorem split_withReturns {source : String} (plain : '\r' ∉ source.toList) :
    split (String.ofList (withReturns source.toList)) = (split source).withReturns := by
  have lines := Text.areLines_splitOn plain
  rw [split, split, String.toList_ofList, Text.splitOn_withReturns plain]
  rcases parts : Text.splitOn '\n' source.toList with _ | ⟨opening, _ | ⟨first, rest⟩⟩
  · rfl
  · rfl
  · rw [parts] at lines
    obtain ⟨here, below⟩ := List.forall_mem_cons.1 lines
    obtain ⟨next, more, same⟩ := List.exists_cons_of_ne_nil (Text.returned_ne_nil (List.cons_ne_nil first rest))
    have block := block?_returned below
    rw [Text.returned_cons opening (by simp), same]
    rw [same] at block
    simp only [isMark_concat here.2, block]
    split
    · cases block? (first :: rest) with
      | none => rfl
      | some parts => simp only [Option.map_some, Split.withReturns, String.toList_ofList]
    · rfl

/-- The block is some of the lines, and what follows it are the others. -/
theorem block?_cut {lines : List (List Char)} {yaml body : List Char} (found : block? lines = some (yaml, body)) :
    ∃ front back, lines = front ++ back ∧ front ≠ [] ∧ body = joined back := by
  cases lines with
  | nil => cases found
  | cons first rest =>
    rw [block?_cons] at found
    cases parts : lazily mark? rest with
    | none =>
      rw [parts] at found
      simp only [Option.ite_none_right_eq_some, Option.some.injEq, Prod.mk.injEq] at found
      exact ⟨[first], rest, rfl, List.cons_ne_nil _ _, found.2.2.symm⟩
    | some cut =>
      obtain ⟨before, after⟩ := cut
      obtain ⟨mark, rfl⟩ := exists_mark_of_lazily parts
      rw [parts] at found
      simp only [Option.some.injEq, Prod.mk.injEq] at found
      exact ⟨first :: (before ++ [mark]), after, by simp, List.cons_ne_nil _ _, found.2.symm⟩

/-- A document has no block, or its body is what at least two lines leave of it. -/
theorem split_cases (source : String) : split source = ⟨none, source⟩ ∨
    ∃ yaml front back, Text.splitOn '\n' source.toList = front ++ back ∧ 2 ≤ front.length ∧
      split source = ⟨some yaml, String.ofList (joined back)⟩ := by
  rw [split]
  rcases parts : Text.splitOn '\n' source.toList with _ | ⟨opening, _ | ⟨first, rest⟩⟩
  · exact Or.inl rfl
  · exact Or.inl rfl
  · simp only
    split
    · cases found : block? (first :: rest) with
      | none => exact Or.inl rfl
      | some block =>
        obtain ⟨yaml, body⟩ := block
        obtain ⟨front, back, same, some, rfl⟩ := block?_cut found
        have positive := List.length_pos_iff.2 some
        exact Or.inr ⟨String.ofList yaml, opening :: front, back, congrArg (opening :: ·) same,
          Nat.succ_le_succ positive, rfl⟩
    · exact Or.inl rfl

theorem body_suffix (source : String) : (split source).body.toList <:+ source.toList := by
  rcases split_cases source with bare | ⟨yaml, front, back, parts, _, cut⟩
  · exact ⟨[], congrArg (fun cut : Split => cut.body.toList) bare⟩
  · have whole := Text.join_splitOn '\n' source.toList
    rw [cut, String.toList_ofList, ← whole, parts]
    exact Text.join_suffix front back

end Frontmatter

namespace Tree

theorem parse_nodes (source : String) :
    (parse source).map nodes =
      Body.empty.readRest Markdown.parse (Token.tokenize (Frontmatter.split source).body) := by
  rw [parse, parseWith]
  cases Body.empty.readRest Markdown.parse (Token.tokenize (Frontmatter.split source).body) <;> rfl

/-- A document with carriage returns in front of its line feeds fails in the same way as the document without them,
or has the same nodes, and it has a frontmatter block if and only if the other one has. -/
theorem parse_withReturns (source : String) (plain : '\r' ∉ source.toList) :
    (parse (String.ofList (Text.withReturns source.toList))).map nodes = (parse source).map nodes ∧
      (Frontmatter.split (String.ofList (Text.withReturns source.toList))).yaml.isSome =
        (Frontmatter.split source).yaml.isSome := by
  have body : '\r' ∉ (Frontmatter.split source).body.toList := fun inside =>
    plain ((Frontmatter.body_suffix source).subset inside)
  rw [parse_nodes, parse_nodes, Frontmatter.split_withReturns plain]
  refine ⟨?_, Option.isSome_map⟩
  rw [Frontmatter.Split.withReturns, Token.tokenize, Token.tokenize, String.toList_ofList,
    Text.lines_withReturns body]

/-- A document with a frontmatter block, a fence and a component whose attributes end in an open quote. -/
theorem parse_withReturns_page :
    '\r' ∉ "---\n---\n~~~\n::x\n~~~\n::card\x7ba=\"\x7d\n".toList ∧
      (parse (String.ofList (Text.withReturns "---\n---\n~~~\n::x\n~~~\n::card\x7ba=\"\x7d\n".toList))).map nodes =
        (parse "---\n---\n~~~\n::x\n~~~\n::card\x7ba=\"\x7d\n").map nodes ∧
      (Frontmatter.split
          (String.ofList (Text.withReturns "---\n---\n~~~\n::x\n~~~\n::card\x7ba=\"\x7d\n".toList))).yaml.isSome =
        (Frontmatter.split "---\n---\n~~~\n::x\n~~~\n::card\x7ba=\"\x7d\n").yaml.isSome :=
  ⟨by decide, parse_withReturns _ (by decide)⟩

end Tree

end ComponentMarkdown
