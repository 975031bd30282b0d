import ComponentMarkdown.Markup.Writer
import ComponentMarkdown.Proofs.Markup.LineEnds

namespace ComponentMarkdown

namespace Text

/-- Three dashes with nothing behind them but blanks and tabs. -/
def IsDashes (line : List Char) : Prop :=
  ∃ blanks, line = ['-', '-', '-'] ++ blanks ∧ ∀ c ∈ blanks, c = ' ' ∨ c = '\t'

theorem IsDashes.three_le {line : List Char} (dashes : IsDashes line) : 3 ≤ line.length := by
  obtain ⟨blanks, rfl, _⟩ := dashes
  simp

theorem length_le_dropReturn (line : List Char) : line.length ≤ (dropReturn line).length + 1 := by
  rw [dropReturn]
  split
  · rw [List.length_dropLast]
    omega
  · omega

/-- The line feeds at the end of a text are behind what is left without them. -/
theorem append_feeds (s : List Char) : ∃ n, s = dropEndWhile (· = '\n') s ++ List.replicate n '\n' := by
  have feeds : s.reverse.takeWhile (fun c => decide (c = '\n')) =
      List.replicate (s.reverse.takeWhile fun c => decide (c = '\n')).length '\n' :=
    List.eq_replicate_iff.2 ⟨rfl, fun c member => by simpa using List.mem_takeWhile_imp member⟩
  refine ⟨(s.reverse.takeWhile fun c => decide (c = '\n')).length, ?_⟩
  calc s = (s.reverse.takeWhile (fun c => decide (c = '\n')) ++ s.reverse.dropWhile fun c =>
    decide (c = '\n')).reverse := by
        rw [List.takeWhile_append_dropWhile, List.reverse_reverse]
    _ = dropEndWhile (· = '\n') s ++ (s.reverse.takeWhile fun c => decide (c = '\n')).reverse := by
        rw [List.reverse_append, dropEndWhile]
    _ = _ := by
        rw [feeds, List.reverse_replicate, List.length_replicate]

/-- Without the line feeds at its end a text has no other lines. -/
theorem mem_splitOn_of_dropFeeds {s line : List Char}
    (member : line ∈ splitOn '\n' (dropEndWhile (· = '\n') s)) : line ∈ splitOn '\n' s := by
  obtain ⟨n, whole⟩ := append_feeds s
  generalize dropEndWhile (· = '\n') s = front at member whole
  subst whole
  cases n with
  | zero => simpa using member
  | succ n =>
    rw [List.replicate_succ, splitOn_append_cons]
    exact List.mem_append_left _ member

end Text

namespace Frontmatter

open Text (IsDashes)

/-- Marks are lines of dashes. The line end does not count, and only a line with a line feed has one. -/
theorem isMark_iff {ended : Bool} {line : List Char} :
    isMark ended line = true ↔ IsDashes (if ended then Text.dropReturn line else line) := by
  rw [isMark]
  generalize (if ended then Text.dropReturn line else line) = text
  constructor
  · intro marked
    split at marked
    · exact ⟨_, rfl, by simpa using marked⟩
    · cases marked
  · rintro ⟨blanks, rfl, only⟩
    simpa using only

/-- The first line of dashes in a list of lines, with the lines in front of it and the lines behind it. The last of
the lines is the only one without a line feed. -/
structure FirstDashes (lines before : List (List Char)) (mark : List Char) (after : List (List Char)) : Prop where
  whole : lines = before ++ mark :: after
  noneBefore : ∀ line ∈ before, ¬ IsDashes (Text.dropReturn line)
  dashes : IsDashes (if after = [] then mark else Text.dropReturn mark)

variable {lines before after : List (List Char)} {mark : List Char}

theorem FirstDashes.isMark (first : FirstDashes lines before mark after) : isMark (!after.isEmpty) mark = true := by
  have dashes := first.dashes
  rw [isMark_iff]
  cases after <;> simpa using dashes

theorem FirstDashes.three_le (first : FirstDashes lines before mark after) : 3 ≤ mark.length := by
  have dashes := first.dashes.three_le
  split at dashes
  · exact dashes
  · exact dashes.trans (Text.dropReturn_prefix mark).length_le

theorem lazily_mark?_eq_some_iff :
    lazily mark? lines = some (before, after) ↔ ∃ mark, FirstDashes lines before mark after := by
  constructor
  · intro found
    induction lines generalizing before with
    | nil => cases found
    | cons line rest ih =>
      rw [lazily_mark?_cons] at found
      split at found
      · rename_i marked
        cases found
        rw [isMark_iff] at marked
        exact ⟨line, rfl, List.forall_mem_nil _, by cases after <;> simpa using marked⟩
      · rename_i other
        obtain ⟨⟨front, back⟩, later, same⟩ := Option.map_eq_some_iff.1 found
        cases same
        obtain ⟨mark, rfl, none, dashes⟩ := ih later
        -- More lines follow, so the line has a line end.
        have more : (front ++ mark :: after).isEmpty = false := by simp
        rw [more, Bool.not_false, isMark_iff, if_pos rfl] at other
        exact ⟨mark, rfl, List.forall_mem_cons.2 ⟨other, none⟩, dashes⟩
  · rintro ⟨mark, first⟩
    obtain rfl := first.whole
    induction before with
    | nil => rw [List.nil_append, lazily_mark?_cons, if_pos first.isMark]
    | cons line rest ih =>
      obtain ⟨here, below⟩ := List.forall_mem_cons.1 first.noneBefore
      have more : (rest ++ mark :: after).isEmpty = false := by simp
      rw [List.cons_append, lazily_mark?_cons, more, Bool.not_false, if_neg (by rwa [isMark_iff, if_pos rfl]),
        ih ⟨rfl, below, first.dashes⟩]
      rfl

/-- A document that opens with a mark is cut where the block of the lines behind it ends. -/
theorem split_of_opening {source : String} {opening : List Char} (some : lines ≠ [])
    (parts : Text.splitOn '\n' source.toList = opening :: lines) (opens : IsDashes (Text.dropReturn opening))
    {yaml body : List Char} (block : block? lines = Option.some (yaml, body)) :
    split source = ⟨Option.some (String.ofList yaml), String.ofList body⟩ := by
  obtain ⟨first, rest, rfl⟩ := List.exists_cons_of_ne_nil some
  have marked : isMark true opening = true := by rwa [isMark_iff, if_pos rfl]
  rw [split, parts]
  simp only [marked, block, if_true]

theorem block?_of_ne_nil (first : FirstDashes lines before mark after) (some : before ≠ []) :
    block? lines = Option.some (textOf before, joined after) := by
  obtain ⟨line, rest, rfl⟩ := List.exists_cons_of_ne_nil some
  obtain ⟨-, below⟩ := List.forall_mem_cons.1 first.noneBefore
  have found : lazily mark? (rest ++ mark :: after) = Option.some (rest, after) :=
    lazily_mark?_eq_some_iff.2 ⟨mark, rfl, below, first.dashes⟩
  rw [first.whole, List.cons_append, block?_cons, found]

theorem block?_of_nil (first : FirstDashes lines [] mark after)
    (last : ∀ inner mark' behind, ¬ FirstDashes after inner mark' behind) :
    block? lines = some (textOf [], joined after) := by
  have none : lazily mark? after = none := Option.eq_none_iff_forall_ne_some.2 fun cut found =>
    have ⟨mark', first'⟩ := lazily_mark?_eq_some_iff.1 found
    last cut.1 mark' cut.2 first'
  rw [first.whole, List.nil_append, block?_cons, none]
  simp only [first.isMark, if_true]
  rfl

theorem block?_of_another {inner behind : List (List Char)} {mark' : List Char}
    (first : FirstDashes lines [] mark after) (second : FirstDashes after inner mark' behind) :
    block? lines = some (textOf (mark :: inner), joined behind) := by
  have found : lazily mark? after = some (inner, behind) := lazily_mark?_eq_some_iff.2 ⟨mark', second⟩
  rw [first.whole, List.nil_append, block?_cons, found]

theorem textOf_cons_ne_nil (first : FirstDashes lines before mark after) (inner : List (List Char)) :
    textOf (mark :: inner) ≠ [] := by
  intro empty
  have long := first.three_le
  have short := Text.length_le_dropReturn (joined (mark :: inner))
  rw [textOf] at empty
  rw [empty, joined, Text.join_cons_eq_flatMap, List.length_append, List.length_nil] at short
  omega

/-- The block of a document whose first line is a line of dashes ends at the next such line, unless there is nothing
between the two and a third one follows. Then the block goes on to the third, with the second as its first line. -/
theorem split_firstDashes_iff {source : String} {opening : List Char}
    (parts : Text.splitOn '\n' source.toList = opening :: lines) (opens : IsDashes (Text.dropReturn opening))
    (first : FirstDashes lines before mark after) :
    (split source = ⟨some (String.ofList (textOf before)), String.ofList (joined after)⟩ ↔
      (before = [] → ∀ inner mark' behind, ¬ FirstDashes after inner mark' behind)) ∧
    ∀ inner mark' behind, before = [] → FirstDashes after inner mark' behind →
      split source = ⟨some (String.ofList (textOf (mark :: inner))), String.ofList (joined behind)⟩ := by
  have more : lines ≠ [] := by simp [first.whole]
  have wrong : ∀ inner mark' behind, before = [] → FirstDashes after inner mark' behind →
      split source = ⟨some (String.ofList (textOf (mark :: inner))), String.ofList (joined behind)⟩ := by
    rintro inner mark' behind rfl second
    exact split_of_opening more parts opens (block?_of_another first second)
  refine ⟨⟨fun right none inner mark' behind second => ?_, fun single => ?_⟩, wrong⟩
  · -- The block would be empty, and the one that is read starts with the mark.
    have other := wrong inner mark' behind none second
    rw [right, none] at other
    have yaml := Option.some.inj (congrArg Split.yaml other)
    exact absurd (String.ofList_injective yaml).symm (textOf_cons_ne_nil first inner)
  · by_cases none : before = []
    · subst none
      exact split_of_opening more parts opens (block?_of_nil first (single rfl))
    · exact split_of_opening more parts opens (block?_of_ne_nil first none)

/-- A block of one line, with line ends of both kinds, in front of a text with a rule in it. -/
theorem split_firstDashes_iff_title :
    (Text.splitOn '\n' "--- \ntitle: x\r\n---\t\r\nText\n---\n".toList =
        "--- ".toList :: ["title: x\r".toList, "---\t\r".toList, "Text".toList, "---".toList, []] ∧
      IsDashes (Text.dropReturn "--- ".toList) ∧
      FirstDashes ["title: x\r".toList, "---\t\r".toList, "Text".toList, "---".toList, []] ["title: x\r".toList]
        "---\t\r".toList ["Text".toList, "---".toList, []]) ∧
    split "--- \ntitle: x\r\n---\t\r\nText\n---\n" = ⟨some "title: x", "Text\n---\n"⟩ := by
  have parts : Text.splitOn '\n' "--- \ntitle: x\r\n---\t\r\nText\n---\n".toList =
      "--- ".toList :: ["title: x\r".toList, "---\t\r".toList, "Text".toList, "---".toList, []] := by decide
  have opens : IsDashes (Text.dropReturn "--- ".toList) := ⟨[' '], rfl, by simp⟩
  have title : ¬ IsDashes (Text.dropReturn "title: x\r".toList) := by
    rintro ⟨blanks, same, _⟩
    cases same
  have first : FirstDashes ["title: x\r".toList, "---\t\r".toList, "Text".toList, "---".toList, []]
      ["title: x\r".toList] "---\t\r".toList ["Text".toList, "---".toList, []] :=
    ⟨rfl, List.forall_mem_singleton.2 title, ['\t'], rfl, by simp⟩
  exact ⟨⟨parts, opens, first⟩,
    (split_firstDashes_iff parts opens first).1.2 fun empty => absurd empty (List.cons_ne_nil _ _)⟩

/-- An empty block in front of a text with a rule in it. -/
theorem split_firstDashes_rule :
    FirstDashes ["---".toList, "Text".toList, "---".toList, []] [] "---".toList ["Text".toList, "---".toList, []] ∧
      split "---\n---\nText\n---\n" = ⟨some "---\nText", ""⟩ ∧
      split "---\n---\nText\n---\n" ≠ ⟨some "", "Text\n---\n"⟩ := by
  refine ⟨⟨rfl, List.forall_mem_nil _, [], rfl, List.forall_mem_nil _⟩, by decide, by decide⟩

/-- A text between two marks that has no lines of dashes itself is read back, whatever follows. -/
theorem split_framed {source : String} {text rest : List Char}
    (written : source.toList = ['-', '-', '-'] ++ '\n' :: (text ++ '\n' :: (['-', '-', '-'] ++ '\n' :: rest)))
    (plain : '\r' ∉ text) (noDashes : ∀ line ∈ Text.splitOn '\n' text, ¬ IsDashes line) :
    split source = ⟨some (String.ofList text), String.ofList rest⟩ := by
  have parts : Text.splitOn '\n' source.toList =
      ['-', '-', '-'] :: (Text.splitOn '\n' text ++ ['-', '-', '-'] :: Text.splitOn '\n' rest) := by
    rw [written, Text.splitOn_append (by decide), Text.splitOn_append_cons, Text.splitOn_append (by decide)]
  have first : FirstDashes (Text.splitOn '\n' text ++ ['-', '-', '-'] :: Text.splitOn '\n' rest)
      (Text.splitOn '\n' text) ['-', '-', '-'] (Text.splitOn '\n' rest) := by
    refine ⟨rfl, fun line member => ?_, ?_⟩
    · have oneLine : '\r' ∉ line := fun within => plain ((Text.infix_of_mem_splitOn member).subset within)
      rw [Text.dropReturn_of_not_mem oneLine]
      exact noDashes line member
    · rw [if_neg (Text.splitOn_ne_nil _ _)]
      exact ⟨[], rfl, List.forall_mem_nil _⟩
  have yaml : textOf (Text.splitOn '\n' text) = text := by
    rw [textOf, joined, Text.join_splitOn, Text.dropReturn_of_not_mem plain]
  have block := block?_of_ne_nil first (Text.splitOn_ne_nil _ _)
  rw [split_of_opening (by simp) parts ⟨[], rfl, List.forall_mem_nil _⟩ block, yaml, joined, Text.join_splitOn]

end Frontmatter

namespace Tree

open Text (IsDashes)

/-- Text without carriage returns and without lines of dashes that is kept as frontmatter is the text of the block
that is read, up to the line feeds at its end, whatever the tree holds besides. -/
theorem split_toMarkdown_kept {tree : Tree} {raw : String} (kept : tree.frontmatter = .str raw)
    (plain : '\r' ∉ raw.toList) (noDashes : ∀ line ∈ Text.splitOn '\n' raw.toList, ¬ IsDashes line) :
    Frontmatter.split (tree.toMarkdown false) =
      ⟨some (String.ofList (Text.dropEndWhile (· = '\n') raw.toList)), "\n" ++ tree.toMarkdown true⟩ := by
  have plain' : '\r' ∉ Text.dropEndWhile (· = '\n') raw.toList := by
    obtain ⟨n, whole⟩ := Text.append_feeds raw.toList
    rw [whole, List.mem_append, not_or] at plain
    exact plain.1
  have noDashes' := fun line member => noDashes line (Text.mem_splitOn_of_dropFeeds member)
  have written : (tree.toMarkdown false).toList = ['-', '-', '-'] ++ '\n' ::
      (Text.dropEndWhile (· = '\n') raw.toList ++ '\n' :: (['-', '-', '-'] ++ '\n' :: '\n' :: tree.bodyText)) := by
    have block : Writer.frontmatter (.str raw) =
        "---\n".toList ++ (Text.dropEndWhile (· = '\n') raw.toList ++ ['\n']) ++ "---\n\n".toList := rfl
    rw [toMarkdown, String.toList_ofList, if_neg Bool.false_ne_true, kept, block,
      List.append_assoc, List.append_assoc, List.append_assoc]
    rfl
  have body : "\n" ++ tree.toMarkdown true = String.ofList ('\n' :: tree.bodyText) := by
    have feed : "\n" = String.ofList ['\n'] := rfl
    rw [toMarkdown, if_pos rfl, List.nil_append, feed, ← String.ofList_append, List.singleton_append]
  rw [Frontmatter.split_framed written plain' noDashes', body]

/-- A text that is no map, with a dash at the start of a line and line feeds at its end, in a document that opens
with a rule and has another one in its code. -/
theorem split_toMarkdown_kept_rules :
    let tree : Tree :=
    ⟨[.element "hr" [] [], .element "pre" [("code", .str "---\n--- x")] []], .str "a: [b\n- -\n\n", []⟩
    ('\r' ∉ "a: [b\n- -\n\n".toList ∧ ∀ line ∈ Text.splitOn '\n' "a: [b\n- -\n\n".toList, ¬ IsDashes line) ∧
      Frontmatter.split (tree.toMarkdown false) = ⟨some "a: [b\n- -", "\n" ++ tree.toMarkdown true⟩ := by
  have plain : '\r' ∉ "a: [b\n- -\n\n".toList := by decide
  have noDashes : ∀ line ∈ Text.splitOn '\n' "a: [b\n- -\n\n".toList, ¬ IsDashes line := by
    rintro line member ⟨blanks, same, _⟩
    have start : ∀ line ∈ Text.splitOn '\n' "a: [b\n- -\n\n".toList, line.take 3 ≠ ['-', '-', '-'] := by decide
    exact start line member (by rw [same]; rfl)
  have trimmed : Text.dropEndWhile (· = '\n') "a: [b\n- -\n\n".toList = "a: [b\n- -".toList := by decide
  intro tree
  have read := split_toMarkdown_kept (rfl : tree.frontmatter = .str "a: [b\n- -\n\n") plain noDashes
  rw [trimmed, String.ofList_toList] at read
  exact ⟨⟨plain, noDashes⟩, read⟩

end Tree

end ComponentMarkdown
