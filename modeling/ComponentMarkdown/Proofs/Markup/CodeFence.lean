import ComponentMarkdown.Markup.Writer
import ComponentMarkdown.Proofs.Markup.Token

namespace ComponentMarkdown

namespace CodeFence

section Runs

variable {n : Nat} {code : List Char}

theorem add_le_longestRunFrom (run : List.replicate n backtick <+: code) (current : Nat) :
    current + n ≤ longestRunFrom current code := by
  induction code generalizing n current with
  | nil =>
    have none : n = 0 := by simpa using run
    rw [longestRunFrom]
    omega
  | cons c rest ih =>
    rw [longestRunFrom]
    split
    · rename_i same
      cases n with
      | zero =>
        have longer : current + 1 + 0 ≤ longestRunFrom (current + 1) rest := ih (by simp) (current + 1)
        omega
      | succ n =>
        rw [List.replicate_succ, List.cons_prefix_cons] at run
        have longer : current + 1 + n ≤ longestRunFrom (current + 1) rest := ih run.2 (current + 1)
        omega
    · rename_i other
      cases n with
      | zero => omega
      | succ n =>
        rw [List.replicate_succ, List.cons_prefix_cons] at run
        exact absurd run.1.symm other

theorem le_longestRunFrom (run : List.replicate n backtick <:+: code) (current : Nat) :
    n ≤ longestRunFrom current code := by
  induction code generalizing current with
  | nil =>
    have none : n = 0 := by simpa using run
    omega
  | cons c rest ih =>
    rcases List.infix_cons_iff.1 run with first | later
    · have here := add_le_longestRunFrom first current
      omega
    · rw [longestRunFrom]
      split
      · exact ih later (current + 1)
      · have behind := ih later 0
        omega

/-- A fence is longer than any run of backticks in the code. -/
theorem lt_fenceLength (run : List.replicate n backtick <:+: code) : n < fenceLength code := by
  have bound := le_longestRunFrom run 0
  rw [fenceLength]
  omega

theorem three_le_fenceLength (code : List Char) : 3 ≤ fenceLength code := Nat.le_max_right _ _

end Runs

/-- The lines of a block between its fences. -/
def codeLines (code : List Char) : List (List Char) := if code.isEmpty then [] else Text.splitOn '\n' code

theorem infix_of_mem_codeLines {code line : List Char} (member : line ∈ codeLines code) : line <:+: code := by
  rw [codeLines] at member
  split at member
  · cases member
  · exact Text.infix_of_mem_splitOn member

/-- The fence of a code block. -/
def fence (code : List Char) : List Char := List.replicate (fenceLength code) backtick

theorem splitOn_write {info : Info} {first : List Char} {more : List (List Char)}
    (parts : Text.splitOn '\n' info.write = first :: more) (code : List Char) :
    Text.splitOn '\n' (write info code) = (fence code ++ first) :: (more ++ codeLines code ++ [fence code]) := by
  have oneLine : '\n' ∉ fence code := by simp [fence, backtick]
  have opening := Text.splitOn_append_of_not_mem oneLine parts
  have closing : Text.splitOn '\n' (fence code) = [fence code] := Text.splitOn_of_not_mem oneLine
  have whole : write info code =
      (fence code ++ info.write) ++ '\n' :: ((if code.isEmpty then [] else code ++ ['\n']) ++ fence code) := rfl
  rw [whole, Text.splitOn_append_cons, opening, codeLines]
  split
  · rw [List.nil_append, closing, List.append_nil, List.cons_append]
  · rw [List.append_assoc, List.singleton_append, Text.splitOn_append_cons, closing,
      List.cons_append, List.append_assoc]

/-- Whether the parts of an info string leave it on the line of the fence, and apart from it. -/
def Info.isPlain (info : Info) : Bool :=
  [info.language, info.filename, info.meta?].all fun part =>
    part.all fun s => backtick ∉ s.toList && '\n' ∉ s.toList

/-- A part of an info string, if there is one and it is not empty. -/
def partOf (part : Option String) (wrap : List Char → List Char) : List (List Char) :=
  part.elim [] fun s => if s = "" then [] else [wrap s.toList]

theorem not_mem_partOf {part : Option String} {wrap : List Char → List Char} {c : Char}
    (wraps : ∀ s, c ∉ s → c ∉ wrap s) (plain : ∀ s, part = some s → c ∉ s.toList) :
    ∀ text ∈ partOf part wrap, c ∉ text := by
  intro text inside
  cases part with
  | none => cases inside
  | some s =>
    rw [partOf, Option.elim_some] at inside
    split at inside
    · cases inside
    · rw [List.mem_singleton.1 inside]
      exact wraps _ (plain s rfl)

theorem Info.write_eq (info : Info) : info.write = Text.join [' '] (partOf info.language id ++
    partOf info.filename (fun s => '[' :: (s ++ [']'])) ++ partOf info.meta? id) := by
  obtain ⟨_ | _, _ | _, _ | _⟩ := info <;> rfl

theorem not_mem_write {info : Info} {c : Char} (blank : c ≠ ' ') (bracket : c ≠ '[') (bracket' : c ≠ ']')
    (plain : ∀ part ∈ [info.language, info.filename, info.meta?], ∀ s, part = some s → c ∉ s.toList) :
    c ∉ info.write := by
  have brackets : ∀ s, c ∉ s → c ∉ '[' :: (s ++ [']']) := by
    intro s outside
    simp [bracket, bracket', outside]
  rw [Info.write_eq]
  refine Text.not_mem_join (by simp [blank]) (List.forall_mem_append.2 ⟨List.forall_mem_append.2 ⟨?_, ?_⟩, ?_⟩)
  · exact not_mem_partOf (fun s outside => outside) (plain _ (by simp))
  · exact not_mem_partOf brackets (plain _ (by simp))
  · exact not_mem_partOf (fun s outside => outside) (plain _ (by simp))

theorem not_mem_of_isPlain {info : Info} (plain : info.isPlain = true) :
    backtick ∉ info.write ∧ '\n' ∉ info.write := by
  have parts : ∀ part ∈ [info.language, info.filename, info.meta?], ∀ s, part = some s →
      backtick ∉ s.toList ∧ '\n' ∉ s.toList := by
    rintro part member s rfl
    have here := List.all_eq_true.1 plain _ member
    simpa using here
  exact ⟨not_mem_write (by decide) (by decide) (by decide) fun part member s same => (parts part member s same).1,
    not_mem_write (by decide) (by decide) (by decide) fun part member s same => (parts part member s same).2⟩

end CodeFence

namespace Writer

/-- What a code block says about its code. -/
def infoOf (attrs : Attrs) : CodeFence.Info :=
  ⟨attrs.getString? "language", attrs.getString? "filename", attrs.getString? "meta"⟩

/-- The code of a code block. -/
def codeOf (attrs : Attrs) (children : List Node) : List Char :=
  ((attrs.getString? "code").getD (Node.textOf children)).toList

theorem code_eq (attrs : Attrs) (children : List Node) :
    code attrs (Node.textOf children) = CodeFence.write (infoOf attrs) (codeOf attrs children) := rfl

end Writer

namespace Token

open CodeFence (backtick fenceLength)

/-- The lines that a code block is read as. -/
def codeBlockLines (attrs : Attrs) (children : List Node) : List (List Char) :=
  Text.lines (Writer.code attrs (Node.textOf children) ++ ['\n'])

section CodeBlock

variable {attrs : Attrs} (plain : (Writer.infoOf attrs).isPlain = true) (children : List Node)

include plain

theorem codeBlockLines_eq : codeBlockLines attrs children =
    (CodeFence.fence (Writer.codeOf attrs children) ++ Text.dropReturn (Writer.infoOf attrs).write) ::
      ((CodeFence.codeLines (Writer.codeOf attrs children)).map Text.dropReturn ++
        [CodeFence.fence (Writer.codeOf attrs children)]) := by
  obtain ⟨_, oneLine⟩ := CodeFence.not_mem_of_isPlain plain
  have solid : (CodeFence.fence (Writer.codeOf attrs children)).getLast? ≠ some '\r' := by
    intro last
    have member := List.mem_of_getLast? last
    rw [CodeFence.fence, List.mem_replicate] at member
    exact absurd member.2 (by decide)
  rw [codeBlockLines, Text.lines_concat, Writer.code_eq, CodeFence.splitOn_write (Text.splitOn_of_not_mem oneLine),
    List.nil_append, List.map_cons, List.map_append, List.map_singleton, Text.dropReturn_append solid,
    Text.dropReturn_of_ne solid]

theorem opensFence?_codeBlock : opensFence? (CodeFence.fence (Writer.codeOf attrs children) ++
    Text.dropReturn (Writer.infoOf attrs).write) = some ⟨backtick, fenceLength (Writer.codeOf attrs children)⟩ := by
  obtain ⟨noBacktick, _⟩ := CodeFence.not_mem_of_isPlain plain
  have behind : backtick ∉ Text.dropReturn (Writer.infoOf attrs).write := fun member =>
    noBacktick ((Text.dropReturn_prefix _).subset member)
  exact opensFence?_backticks (Nat.zero_le 3) (CodeFence.three_le_fenceLength _) behind

omit plain in
theorem closesFence_codeLines (code : List Char) : ∀ line ∈ (CodeFence.codeLines code).map Text.dropReturn,
    closesFence ⟨backtick, fenceLength code⟩ line = false := by
  intro line member
  obtain ⟨origin, listed, rfl⟩ := List.mem_map.1 member
  refine closesFence_eq_false fun n run => CodeFence.lt_fenceLength ?_
  have part : Text.dropReturn origin <:+: code :=
    (Text.dropReturn_prefix origin).isInfix.trans (CodeFence.infix_of_mem_codeLines listed)
  exact run.trans part

omit plain in
theorem closesFence_fence (code : List Char) :
    closesFence ⟨backtick, fenceLength code⟩ (CodeFence.fence code) = true := by
  have long := CodeFence.three_le_fenceLength code
  have closes := closesFence_backticks (Nat.zero_le 3) (by omega) (Nat.le_refl (fenceLength code))
    (List.not_mem_nil : '\x60' ∉ ([] : List Char))
  rw [List.append_nil] at closes
  exact closes

/-- Code is read as markdown, whatever its lines are. The fence is open behind each line of the block but the last,
and what stands below the block is read as it is on its own. -/
theorem tokenize_code (rest : List Char) :
    tokenize (String.ofList (Writer.code attrs (Node.textOf children) ++ '\n' :: rest)) =
        markdownFrom 1 (codeBlockLines attrs children) ++
          (tokenize (String.ofList rest)).map (below (codeBlockLines attrs children).length) ∧
      fenceBehind none (codeBlockLines attrs children) = none ∧
      ∀ front back, codeBlockLines attrs children = front ++ back → front ≠ [] → back ≠ [] →
        fenceBehind none front = some ⟨backtick, fenceLength (Writer.codeOf attrs children)⟩ := by
  have lines := codeBlockLines_eq plain children
  have first := opensFence?_codeBlock plain children
  have inside := closesFence_codeLines (Writer.codeOf attrs children)
  have last := closesFence_fence (Writer.codeOf attrs children)
  -- From here on it only matters that the first line opens the fence, none inside closes it, and the last one does.
  generalize CodeFence.fence (Writer.codeOf attrs children) ++ Text.dropReturn (Writer.infoOf attrs).write = opening
    at lines first
  generalize (CodeFence.codeLines (Writer.codeOf attrs children)).map Text.dropReturn = inner at lines inside
  generalize CodeFence.fence (Writer.codeOf attrs children) = closing at lines last
  have tokens : ofLines none 1 (codeBlockLines attrs children) =
    markdownFrom 1 (codeBlockLines attrs children) := by
    rw [lines, ofLines_step, step_opening first, ofLines_append, ofLines_inside inside, fenceBehind_inside inside,
      ofLines_step, step_closing last, markdownFrom, markdownFrom_append]
    rfl
  have closed : fenceBehind none (codeBlockLines attrs children) = none := by
    rw [lines, fenceBehind, List.foldl_cons, step_opening first, ← fenceBehind, fenceBehind_append,
      fenceBehind_inside inside, fenceBehind, List.foldl_cons, step_closing last, List.foldl_nil]
  refine ⟨?_, closed, ?_⟩
  · have whole : Text.lines (Writer.code attrs (Node.textOf children) ++ '\n' :: rest) =
        codeBlockLines attrs children ++ Text.lines rest := by
      rw [codeBlockLines, Text.lines_append, Text.lines_concat]
    rw [tokenize, tokenize, String.toList_ofList, String.toList_ofList, whole, ofLines_append, tokens, closed,
      ofLines_below]
  · intro front back split some some'
    obtain ⟨line, front, rfl⟩ := List.exists_cons_of_ne_nil some
    rcases List.eq_nil_or_concat back with rfl | ⟨back, final, rfl⟩
    · exact absurd rfl some'
    rw [List.concat_eq_append, lines, List.cons_append, List.cons.injEq, ← List.append_assoc] at split
    obtain ⟨rfl, content⟩ := split
    obtain ⟨rfl, _⟩ := List.append_inj' content rfl
    rw [fenceBehind, List.foldl_cons, step_opening first, ← fenceBehind]
    exact fenceBehind_inside (List.forall_mem_append.1 inside).1

end CodeBlock

/-- Code that holds fences of both kinds, a component and a slot, in front of a component. -/
theorem tokenize_code_documented :
    (Writer.infoOf [("language", .str "md"), ("filename", .str "a b.md"),
        ("code", .str "~~~\n\x60\x60\x60\x60 js\r\n::alert\n   \x60\x60\x60\n#title\n")]).isPlain = true ∧
      tokenize (String.ofList (Writer.code [("language", .str "md"), ("filename", .str "a b.md"),
          ("code", .str "~~~\n\x60\x60\x60\x60 js\r\n::alert\n   \x60\x60\x60\n#title\n")] (Node.textOf []) ++
            '\n' :: ['#', 'a', '\n', ':', ':'])) =
        [⟨.markdown, "\x60\x60\x60\x60\x60md [a b.md]", 1⟩, ⟨.markdown, "~~~", 2⟩,
          ⟨.markdown, "\x60\x60\x60\x60 js", 3⟩, ⟨.markdown, "::alert", 4⟩,
          ⟨.markdown, "   \x60\x60\x60", 5⟩, ⟨.markdown, "#title", 6⟩, ⟨.markdown, "", 7⟩,
          ⟨.markdown, "\x60\x60\x60\x60\x60", 8⟩, ⟨.slot "a", "#a", 9⟩, ⟨.componentClose 2, "::", 10⟩] :=
  ⟨by decide, (tokenize_code (by decide) [] ['#', 'a', '\n', ':', ':']).1.trans (by decide)⟩

end Token

end ComponentMarkdown
