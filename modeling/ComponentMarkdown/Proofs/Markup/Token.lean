import ComponentMarkdown.Markup.Token
import ComponentMarkdown.Proofs.Text

namespace ComponentMarkdown.Token

/-- Whether a text is read as the name of a component or a slot. -/
def isName : List Char → Bool
  | c :: rest => c.isAlpha && rest.all isNameChar
  | [] => false

section Name

theorem alpha_range {c : Char} (letter : c.isAlpha = true) :
    (65 ≤ c.toNat ∧ c.toNat ≤ 90) ∨ (97 ≤ c.toNat ∧ c.toNat ≤ 122) := by
  have ranges : (decide ('A'.val ≤ c.val ∧ c.val ≤ 'Z'.val) ||
      (decide ('a'.val ≤ c.val) && decide (c.val ≤ 'z'.val))) = true := letter
  simpa [UInt32.le_iff_toNat_le] using ranges

theorem isBlank_of_alpha {c : Char} (letter : c.isAlpha = true) : Text.isBlank c = false := by
  have range := alpha_range letter
  simp only [Text.isBlank, Bool.or_eq_false_iff, Bool.and_eq_false_iff,
    decide_eq_false_iff_not, beq_eq_false_iff_ne]
  omega

theorem isNameChar_of_alpha {c : Char} (letter : c.isAlpha = true) : isNameChar c = true := by
  have range := alpha_range letter
  rw [isNameChar, Text.isWordChar, if_pos (by omega), Char.isAlphanum, letter]
  rfl

variable {name : List Char} (named : isName name = true)

include named

theorem isName_cons : ∃ c rest, name = c :: rest ∧ c.isAlpha = true ∧ ∀ d ∈ rest, isNameChar d = true := by
  cases name with
  | nil => cases named
  | cons c rest =>
    rw [isName, Bool.and_eq_true, List.all_eq_true] at named
    exact ⟨c, rest, rfl, named⟩

theorem isName_chars : ∀ c ∈ name, isNameChar c = true := by
  obtain ⟨c, rest, rfl, letter, chars⟩ := isName_cons named
  exact List.forall_mem_cons.2 ⟨isNameChar_of_alpha letter, chars⟩

theorem name?_append {tail : List Char} (stop : ∀ c ∈ tail.head?, isNameChar c = false) :
    name? (name ++ tail) = some (name, tail) := by
  obtain ⟨c, rest, rfl, letter, chars⟩ := isName_cons named
  rw [List.cons_append, name?, if_pos letter, Text.takeWhile_append_stop chars stop,
    Text.dropWhile_append_stop chars stop]

end Name

section Classify

theorem takeWhile_repeated (c : Char) (n : Nat) {rest : List Char} (stop : rest.head? ≠ some c) :
    ((List.replicate n c ++ rest).takeWhile (· = c)).length = n ∧
      (List.replicate n c ++ rest).dropWhile (· = c) = rest := by
  have repeated : ∀ d ∈ List.replicate n c, decide (d = c) = true := by simp
  have ends : ∀ d ∈ rest.head?, decide (d = c) = false := by
    intro d first
    rw [decide_eq_false_iff_not]
    rintro rfl
    exact stop first
  rw [Text.takeWhile_append_stop repeated ends, Text.dropWhile_append_stop repeated ends, List.length_replicate]
  exact ⟨rfl, rfl⟩

theorem classify_close (depth : Nat) : classify (List.replicate (depth + 2) ':') = .componentClose (depth + 2) := by
  obtain ⟨count, behind⟩ := takeWhile_repeated ':' (depth + 2) (by simp : ([] : List Char).head? ≠ some ':')
  rw [List.append_nil] at count behind
  simp only [classify, fromColons?, count, behind]
  rw [if_neg (by omega), if_pos (by rfl)]

/-- Colons and a name open a component, with the block in braces behind the name. -/
theorem classify_open (depth : Nat) {name : List Char} (named : isName name = true) {block : List Char}
    (braced : block = [] ∨ ∃ inner, block = '\x7b' :: (inner ++ ['\x7d'])) :
    classify (List.replicate (depth + 2) ':' ++ (name ++ block)) =
      .componentOpen (depth + 2) (String.ofList name)
        (if block = [] then none else some (String.ofList block)) := by
  obtain ⟨c, rest, same, letter, _⟩ := isName_cons named
  have noColon : (name ++ block).head? ≠ some ':' := by
    rw [same, List.cons_append, List.head?_cons]
    rintro first
    rw [Option.some.inj first] at letter
    exact absurd letter (by decide)
  have solid : Text.allBlank (name ++ block) = false := by
    rw [same, List.cons_append, Text.allBlank, List.all_cons, isBlank_of_alpha letter]
    rfl
  have stop : ∀ c ∈ block.head?, isNameChar c = false := by
    rcases braced with rfl | ⟨inner, rfl⟩
    · simp
    · intro c first
      rw [← Option.some.inj first]
      decide
  have attrs : blockAttrs? block = some (if block = [] then none else some block) := by
    rcases braced with rfl | ⟨inner, rfl⟩
    · rfl
    · rw [blockAttrs?, Text.trim_between (by decide) (by decide)]
      simp
  obtain ⟨count, behind⟩ := takeWhile_repeated ':' (depth + 2) noColon
  simp only [classify, fromColons?, count, behind]
  rw [if_neg (by omega), solid]
  simp only [Bool.false_eq_true, if_false, name?_append named stop, Option.bind_eq_bind, Option.bind_some, attrs]
  by_cases empty : block = []
  · simp [empty]
  · simp [empty]

theorem fromColons?_eq_none {line : List Char} (first : line.head? ≠ some ':') : fromColons? line = none := by
  obtain ⟨count, _⟩ := takeWhile_repeated ':' 0 first
  rw [List.replicate_zero, List.nil_append] at count
  simp only [fromColons?, count]
  rfl

theorem classify_slot {name : List Char} (named : isName name = true) :
    classify ('#' :: name) = .slot (String.ofList name) := by
  have whole := @name?_append _ named [] (by simp)
  rw [List.append_nil] at whole
  rw [classify, fromColons?_eq_none (by simp), fromNumberSign?, whole]
  rfl

theorem classify_nil : classify [] = .markdown := by decide

end Classify

section Fences

/-- The fence that is open behind some lines. -/
def fenceBehind (fence : Option Fence) (lines : List (List Char)) : Option Fence :=
  lines.foldl (fun fence line => (step fence line).2) fence

/-- A token of a text that has more lines above it. -/
def below (above : Nat) (token : Token) : Token := { token with line := token.line + above }

/-- Lines that are read as markdown, of which the first has the given number. -/
def markdownFrom (number : Nat) : List (List Char) → List Token
  | [] => []
  | line :: rest => ⟨.markdown, String.ofList line, number⟩ :: markdownFrom (number + 1) rest

theorem markdownFrom_append (number : Nat) (lines more : List (List Char)) :
    markdownFrom number (lines ++ more) = markdownFrom number lines ++
    markdownFrom (number + lines.length) more := by
  induction lines generalizing number with
  | nil => rfl
  | cons line rest ih =>
    have count : number + (line :: rest).length = number + 1 + rest.length := by
      rw [List.length_cons]
      omega
    rw [List.cons_append, markdownFrom, markdownFrom, ih, count, List.cons_append]

theorem fenceBehind_append (fence : Option Fence) (lines more : List (List Char)) :
    fenceBehind fence (lines ++ more) = fenceBehind (fenceBehind fence lines) more := List.foldl_append

theorem ofLines_step (fence : Option Fence) (number : Nat) (line : List Char) (rest : List (List Char)) :
    ofLines fence number (line :: rest) =
      ⟨(step fence line).1, String.ofList line, number⟩ :: ofLines (step fence line).2 (number + 1) rest := rfl

theorem length_ofLines (fence : Option Fence) (number : Nat) (lines : List (List Char)) :
    (ofLines fence number lines).length = lines.length := by
  induction lines generalizing fence number with
  | nil => rfl
  | cons line rest ih => rw [ofLines_step, List.length_cons, List.length_cons, ih]

/-- What stands above lines matters for them only through the fence that it leaves open. -/
theorem ofLines_append (fence : Option Fence) (number : Nat) (lines more : List (List Char)) :
    ofLines fence number (lines ++ more) =
      ofLines fence number lines ++ ofLines (fenceBehind fence lines) (number + lines.length) more := by
  induction lines generalizing fence number with
  | nil => rfl
  | cons line rest ih =>
    have count : number + (line :: rest).length = number + 1 + rest.length := by
      rw [List.length_cons]
      omega
    rw [List.cons_append, ofLines_step, ofLines_step, ih, count]
    rfl

theorem ofLines_below (fence : Option Fence) (number above : Nat) (lines : List (List Char)) :
    ofLines fence (number + above) lines = (ofLines fence number lines).map (below above) := by
  induction lines generalizing fence number with
  | nil => rfl
  | cons line rest ih =>
    have next : number + above + 1 = number + 1 + above := by omega
    rw [ofLines_step, ofLines_step, next, ih]
    rfl

theorem step_inside {fence : Fence} {line : List Char} (inside : closesFence fence line = false) :
    step (some fence) line = (.markdown, some fence) := by
  simp only [step, inside, Bool.false_eq_true, if_false]

theorem step_closing {fence : Fence} {line : List Char} (last : closesFence fence line = true) :
    step (some fence) line = (.markdown, none) := by
  simp only [step, last, if_true]

theorem step_opening {fence : Fence} {line : List Char} (first : opensFence? line = some fence) :
    step none line = (.markdown, some fence) := by
  simp only [step, first]

section Inside

variable {fence : Fence} {lines : List (List Char)} (inside : ∀ line ∈ lines, closesFence fence line = false)

include inside

/-- A fence stays open over lines that do not close it. -/
theorem fenceBehind_inside : fenceBehind (some fence) lines = some fence := by
  induction lines with
  | nil => rfl
  | cons line rest ih =>
    obtain ⟨here, later⟩ := List.forall_mem_cons.1 inside
    rw [fenceBehind, List.foldl_cons, step_inside here]
    exact ih later

theorem ofLines_inside (number : Nat) : ofLines (some fence) number lines = markdownFrom number lines := by
  induction lines generalizing number with
  | nil => rfl
  | cons line rest ih =>
    obtain ⟨here, later⟩ := List.forall_mem_cons.1 inside
    rw [ofLines_step, step_inside here, ih later, markdownFrom]

end Inside

section Backticks

/-- Up to three blanks in front of a line do not count. -/
theorem unindented?_blanks {width : Nat} (narrow : width ≤ 3) {rest : List Char} (solid : rest.head? ≠ some ' ') :
    unindented? (List.replicate width ' ' ++ rest) = some rest := by
  obtain ⟨count, behind⟩ := takeWhile_repeated ' ' width solid
  rw [unindented?, if_pos (by omega), behind]

variable {width n : Nat} (narrow : width ≤ 3) {info : List Char}

include narrow

theorem unindented?_backticks (some : 0 < n) (info : List Char) :
    unindented? (List.replicate width ' ' ++ (List.replicate n '\x60' ++ info)) =
      Option.some (List.replicate n '\x60' ++ info) := by
  obtain ⟨k, rfl⟩ : ∃ k, n = k + 1 := ⟨n - 1, by omega⟩
  refine unindented?_blanks narrow ?_
  rw [List.replicate_succ, List.cons_append, List.head?_cons]
  decide

theorem opensFence?_backticks (long : 3 ≤ n) (plain : '\x60' ∉ info) :
    opensFence? (List.replicate width ' ' ++ (List.replicate n '\x60' ++ info)) = some ⟨'\x60', n⟩ := by
  obtain ⟨k, rfl⟩ : ∃ k, n = k + 1 := ⟨n - 1, by omega⟩
  have start := unindented?_backticks narrow (by omega : 0 < k + 1) info
  have stop : info.head? ≠ some '\x60' := fun first => plain (List.mem_of_head? first)
  obtain ⟨count, _⟩ := takeWhile_repeated '\x60' (k + 1) stop
  obtain ⟨_, behind⟩ := takeWhile_repeated '\x60' k stop
  rw [List.replicate_succ, List.cons_append] at start count
  rw [List.replicate_succ, List.cons_append, opensFence?, start]
  simp only [true_or, if_true, count, behind, plain, and_false, if_false]
  rw [if_neg (by omega)]

theorem closesFence_backticks {length : Nat} (some : 0 < n) (long : length ≤ n) (plain : '\x60' ∉ info) :
    closesFence ⟨'\x60', length⟩ (List.replicate width ' ' ++ (List.replicate n '\x60' ++ info)) =
    Text.allBlank info := by
  have stop : info.head? ≠ Option.some '\x60' := fun first => plain (List.mem_of_head? first)
  obtain ⟨count, behind⟩ := takeWhile_repeated '\x60' n stop
  rw [closesFence, unindented?_backticks narrow some]
  simp only [count, behind, long, decide_true, Bool.true_and]

end Backticks

/-- A line in which the marker does not stand as often in a row as in the fence does not close it. -/
theorem closesFence_eq_false {fence : Fence} {line : List Char}
    (short : ∀ n, List.replicate n fence.marker <:+: line → n < fence.length) : closesFence fence line = false := by
  rw [closesFence, unindented?]
  by_cases narrow : (line.takeWhile (· = ' ')).length ≤ 3
  · have run : (line.dropWhile (· = ' ')).takeWhile (· = fence.marker) =
        List.replicate ((line.dropWhile (· = ' ')).takeWhile (· = fence.marker)).length fence.marker := by
      refine List.eq_replicate_of_mem fun c member => ?_
      simpa using List.mem_takeWhile_imp member
    have part : (line.dropWhile (· = ' ')).takeWhile (· = fence.marker) <:+: line :=
      (List.takeWhile_prefix _).isInfix.trans (List.dropWhile_suffix _).isInfix
    rw [run] at part
    have bound := short _ part
    simp only [narrow, if_true]
    rw [decide_eq_false (by omega), Bool.false_and]
  · simp only [narrow, if_false]

theorem opensFence?_nil : opensFence? [] = none := by decide

section Cons

variable {c : Char} (rest : List Char) (blank : c ≠ ' ')

include blank

theorem unindented?_cons : unindented? (c :: rest) = some (c :: rest) := by
  rw [unindented?, List.takeWhile_cons_of_neg (by simpa using blank),
    List.dropWhile_cons_of_neg (by simpa using blank)]
  rfl

theorem opensFence?_cons (backtick : c ≠ '\x60') (tilde : c ≠ '~') : opensFence? (c :: rest) = none := by
  rw [opensFence?, unindented?_cons rest blank]
  simp only [backtick, tilde, or_self, if_false]

theorem closesFence_cons {fence : Fence} (other : c ≠ fence.marker) (some : 0 < fence.length) :
    closesFence fence (c :: rest) = false := by
  have none : (c :: rest).takeWhile (· = fence.marker) = [] := List.takeWhile_cons_of_neg (by simpa using other)
  rw [closesFence, unindented?_cons rest blank]
  simp only [none, List.length_nil]
  rw [decide_eq_false (by omega), Bool.false_and]

end Cons

/-- A line that opens no code fence is one token, and the next line is read as if it were the first. -/
theorem ofLines_cons {line : List Char} (plain : opensFence? line = none) (number : Nat) (rest : List (List Char)) :
    ofLines none number (line :: rest) =
      ⟨classify line, String.ofList line, number⟩ :: ofLines none (number + 1) rest := by
  rw [ofLines, step, plain]

end Fences

end ComponentMarkdown.Token
