import ComponentMarkdown.Proofs.Markup.Scan
import Mathlib.Logic.Basic

namespace ComponentMarkdown

namespace Token

/-- Whether a token opens a component, of the given name, with a block that is no attribute block. -/
def Rejects (token : Token) (name : String) (cause : AttributeError) : Prop :=
  ∃ depth block, token.kind = .componentOpen depth name (some block) ∧
    AttributeBlock.read block.toList = .error cause

/-- Whether a token opens no component, or one whose attributes can be read. -/
def IsAccepted (token : Token) : Prop := ∀ name cause, ¬ token.Rejects name cause

/-- The components that are open behind a token, with the lines that opened them, the innermost first. A closing
line closes the innermost, whatever the number of its colons, and outside of all components it is text. -/
def openBehind (opened : List (String × Nat)) (token : Token) : List (String × Nat) :=
  match token.kind with
  | .componentOpen _ name _ => (name, token.line) :: opened
  | .componentClose _ => opened.tail
  | .slot _ | .markdown => opened

/-- Unless all tokens are accepted, there is a first that is not. -/
theorem exists_first_rejected (tokens : List Token) : (∀ token ∈ tokens, token.IsAccepted) ∨
    ∃ before token after, tokens = before ++ token :: after ∧ (∀ other ∈ before, other.IsAccepted) ∧
      ∃ name cause, token.Rejects name cause := by
  induction tokens with
  | nil => exact Or.inl (List.forall_mem_nil _)
  | cons first rest ih =>
    by_cases accepted : first.IsAccepted
    · rcases ih with all | ⟨before, token, after, rfl, earlier, rejected⟩
      · exact Or.inl (List.forall_mem_cons.2 ⟨accepted, all⟩)
      · exact Or.inr ⟨first :: before, token, after, rfl, List.forall_mem_cons.2 ⟨accepted, earlier⟩, rejected⟩
    · simp only [IsAccepted, not_forall, not_not] at accepted
      exact Or.inr ⟨[], first, rest, rfl, List.forall_mem_nil _, accepted⟩

end Token

namespace Progress

/-- The components that are open, with the lines that opened them, the innermost first. -/
def opened (progress : Progress) : List (String × Nat) :=
  progress.stack.map fun component => (component.name, component.line)

theorem opened_modify (progress : Progress) (f : Body → Body) : (progress.modify f).opened = progress.opened := by
  obtain ⟨body, stack⟩ := progress
  cases stack with
  | nil => rfl
  | cons component outer =>
    obtain ⟨name, line, attrs, children, slot⟩ := component
    cases slot <;> rfl

theorem opened_startSlot (blocks : List Char → List Node) (body : Body) (component : OpenComponent)
    (outer : List OpenComponent) (name : String) :
    opened ⟨body, component.startSlot blocks name :: outer⟩ = opened ⟨body, component :: outer⟩ := by
  obtain ⟨title, line, attrs, children, slot⟩ := component
  cases slot <;> rfl

variable (blocks : List Char → List Node) {progress : Progress} {token : Token}

/-- A token that is not accepted ends the reading. -/
theorem step_of_rejects {name : String} {cause : AttributeError} (rejected : token.Rejects name cause) :
    progress.step blocks token = .error (.invalidAttributes name token.line cause) := by
  obtain ⟨depth, block, kind, error⟩ := rejected
  simp only [step, kind, OpenComponent.start, OpenComponent.openAttrs, error]
  rfl

/-- A token that is accepted is read, and opens and closes what it says. -/
theorem step_of_isAccepted (accepted : token.IsAccepted) (progress : Progress) :
    ∃ next, progress.step blocks token = .ok next ∧ next.opened = token.openBehind progress.opened := by
  obtain ⟨body, stack⟩ := progress
  cases kind : token.kind with
  | markdown =>
    refine ⟨modify ⟨body, stack⟩ (·.addLine token.raw), by simp only [step, kind], ?_⟩
    rw [opened_modify, Token.openBehind, kind]
  | componentOpen depth name block =>
    have read : ∃ attrs, OpenComponent.openAttrs name token.line block = .ok attrs := by
      cases block with
      | none => exact ⟨[], rfl⟩
      | some block =>
        cases outcome : AttributeBlock.read block.toList with
        | ok attrs => exact ⟨attrs, by rw [OpenComponent.openAttrs, outcome]⟩
        | error cause => exact absurd ⟨depth, block, kind, outcome⟩ (accepted name cause)
    obtain ⟨attrs, read⟩ := read
    refine ⟨⟨body, ⟨name, token.line, attrs, .empty, none⟩ :: stack⟩, ?_, ?_⟩
    · simp only [step, kind, OpenComponent.start, read]
      rfl
    · rw [Token.openBehind, kind]
      rfl
  | componentClose depth =>
    cases stack with
    | nil =>
      refine ⟨modify ⟨body, []⟩ (·.addLine token.raw), by simp only [step, kind], ?_⟩
      rw [opened_modify, Token.openBehind, kind]
      rfl
    | cons component outer =>
      refine ⟨modify ⟨body, outer⟩ (·.addNode blocks (component.close blocks)), by simp only [step, kind], ?_⟩
      rw [opened_modify, Token.openBehind, kind]
      rfl
  | slot name =>
    cases stack with
    | nil =>
      refine ⟨modify ⟨body, []⟩ (·.addLine token.raw), by simp only [step, kind], ?_⟩
      rw [opened_modify, Token.openBehind, kind]
    | cons component outer =>
      refine ⟨⟨body, component.startSlot blocks name :: outer⟩, by simp only [step, kind], ?_⟩
      rw [opened_startSlot, Token.openBehind, kind]

theorem foldlM_of_isAccepted {tokens : List Token} (accepted : ∀ token ∈ tokens, token.IsAccepted)
    (progress : Progress) : ∃ last, tokens.foldlM (step blocks) progress = .ok last ∧
      last.opened = tokens.foldl Token.openBehind progress.opened := by
  induction tokens generalizing progress with
  | nil => exact ⟨progress, rfl, rfl⟩
  | cons token rest ih =>
    obtain ⟨here, below⟩ := List.forall_mem_cons.1 accepted
    obtain ⟨next, read, behind⟩ := step_of_isAccepted blocks here progress
    obtain ⟨last, run, opened⟩ := ih below next
    refine ⟨last, ?_, by rw [opened, behind, List.foldl_cons]⟩
    rw [List.foldlM_cons, read]
    exact run

theorem foldlM_of_rejects {before after : List Token} (accepted : ∀ other ∈ before, other.IsAccepted)
    {name : String} {cause : AttributeError} (rejected : token.Rejects name cause) (progress : Progress) :
    (before ++ token :: after).foldlM (step blocks) progress =
    .error (.invalidAttributes name token.line cause) := by
  obtain ⟨next, read, -⟩ := foldlM_of_isAccepted blocks accepted progress
  rw [List.foldlM_append, read]
  change (token :: after).foldlM (step blocks) next = _
  rw [List.foldlM_cons, step_of_rejects blocks rejected]
  rfl

/-- Only the components that are open at the end count there. -/
theorem finish_cases (progress : Progress) :
    (progress.opened = [] ∧ ∃ nodes, progress.finish blocks = .ok nodes) ∨
      ∃ name line, progress.opened.head? = some (name, line) ∧
        progress.finish blocks = .error (.unclosedComponent name line) := by
  obtain ⟨body, stack⟩ := progress
  cases stack with
  | nil => exact Or.inl ⟨rfl, body.finish blocks, rfl⟩
  | cons component outer => exact Or.inr ⟨component.name, component.line, rfl, rfl⟩

end Progress

namespace Tree

/-- The tokens of the body of a document. -/
def tokens (source : String) : List Token := Token.tokenize (Frontmatter.split source).body

section Outcome

variable (blocks : List Char → List Node) {source : String}

/-- The descent reads a document as the scan from left to right does. -/
theorem parseWith_eq (source : String) : parseWith blocks source =
    (Progress.scan blocks .start (tokens source)).map fun nodes =>
      ⟨nodes, ((Frontmatter.split source).yaml.map Frontmatter.decode).getD (.obj []), []⟩ := by
  simp only [parseWith, Progress.readRest_eq_scan]
  change (Progress.scan blocks .start (tokens source) >>= fun nodes => _) = _
  cases Progress.scan blocks .start (tokens source) <;> rfl

theorem parseWith_of_rejects {before after : List Token} {token : Token}
    (split : tokens source = before ++ token :: after) (accepted : ∀ other ∈ before, other.IsAccepted)
    {name : String} {cause : AttributeError} (rejected : token.Rejects name cause) :
    parseWith blocks source = .error (.invalidAttributes name token.line cause) := by
  rw [parseWith_eq, Progress.scan, split, Progress.foldlM_of_rejects blocks accepted rejected]
  rfl

theorem parseWith_of_isAccepted (accepted : ∀ token ∈ tokens source, token.IsAccepted) :
    ((tokens source).foldl Token.openBehind [] = [] ∧ ∃ tree, parseWith blocks source = .ok tree) ∨
      ∃ name line, ((tokens source).foldl Token.openBehind []).head? = some (name, line) ∧
        parseWith blocks source = .error (.unclosedComponent name line) := by
  obtain ⟨last, run, opened⟩ := Progress.foldlM_of_isAccepted blocks accepted .start
  have start : Progress.start.opened = [] := rfl
  rw [start] at opened
  have whole : Progress.scan blocks .start (tokens source) = last.finish blocks := by
    rw [Progress.scan, run]
    rfl
  rw [parseWith_eq, whole, ← opened]
  rcases last.finish_cases blocks with ⟨none, nodes, finish⟩ | ⟨name, line, first, finish⟩
  · exact Or.inl ⟨none, _, by rw [finish]; rfl⟩
  · exact Or.inr ⟨name, line, first, by rw [finish]; rfl⟩

theorem parseWith_cases (source : String) :
    (∃ before token after name cause, tokens source = before ++ token :: after ∧
      (∀ other ∈ before, other.IsAccepted) ∧ token.Rejects name cause ∧
        parseWith blocks source = .error (.invalidAttributes name token.line cause)) ∨
    ((∀ token ∈ tokens source, token.IsAccepted) ∧ (tokens source).foldl Token.openBehind [] = [] ∧
      ∃ tree, parseWith blocks source = .ok tree) ∨
    ((∀ token ∈ tokens source, token.IsAccepted) ∧ ∃ name line,
      ((tokens source).foldl Token.openBehind []).head? = some (name, line) ∧
        parseWith blocks source = .error (.unclosedComponent name line)) := by
  rcases Token.exists_first_rejected (tokens source) with
    accepted | ⟨before, token, after, split, earlier, name, cause, rejected⟩
  · rcases parseWith_of_isAccepted blocks accepted with ⟨none, read⟩ | failed
    · exact Or.inr (Or.inl ⟨accepted, none, read⟩)
    · exact Or.inr (Or.inr ⟨accepted, failed⟩)
  · exact Or.inl ⟨before, token, after, name, cause, split, earlier, rejected,
      parseWith_of_rejects blocks split earlier rejected⟩

/-- A document is rejected for the first component whose attribute block is none, also if components are open at the
end. Otherwise it is rejected for the innermost component that is open at the end, and is read if there is none. -/
theorem parseWith_outcome (source : String) :
    (∀ name line cause, parseWith blocks source = .error (.invalidAttributes name line cause) ↔
      ∃ before token after, tokens source = before ++ token :: after ∧ (∀ other ∈ before, other.IsAccepted) ∧
        token.Rejects name cause ∧ token.line = line) ∧
    (∀ name line, parseWith blocks source = .error (.unclosedComponent name line) ↔
      (∀ token ∈ tokens source, token.IsAccepted) ∧
        ((tokens source).foldl Token.openBehind []).head? = some (name, line)) ∧
    ((∃ tree, parseWith blocks source = .ok tree) ↔
      (∀ token ∈ tokens source, token.IsAccepted) ∧ (tokens source).foldl Token.openBehind [] = []) := by
  refine ⟨fun name line cause => ⟨fun failed => ?_, ?_⟩, fun name line => ⟨fun failed => ?_, ?_⟩, ?_, ?_⟩
  · rcases parseWith_cases blocks source
      with ⟨before, token, after, name', cause', split, earlier, rejected, parsed⟩ |
      ⟨_, _, tree, parsed⟩ | ⟨_, name', line', _, parsed⟩
    all_goals
      rw [parsed] at failed
      cases failed
    exact ⟨before, token, after, split, earlier, rejected, rfl⟩
  · rintro ⟨before, token, after, split, earlier, rejected, rfl⟩
    exact parseWith_of_rejects blocks split earlier rejected
  · rcases parseWith_cases blocks source
      with ⟨before, token, after, name', cause', split, earlier, rejected, parsed⟩ |
      ⟨_, _, tree, parsed⟩ | ⟨accepted, name', line', first, parsed⟩
    all_goals
      rw [parsed] at failed
      cases failed
    exact ⟨accepted, first⟩
  · rintro ⟨accepted, first⟩
    rcases parseWith_of_isAccepted blocks accepted with ⟨none, _⟩ | ⟨name', line', first', parsed⟩
    · rw [none] at first
      cases first
    · rw [first] at first'
      cases first'
      exact parsed
  · rintro ⟨tree, read⟩
    rcases parseWith_cases blocks source
      with ⟨before, token, after, name', cause', split, earlier, rejected, parsed⟩ |
      ⟨accepted, none, _⟩ | ⟨_, name', line', _, parsed⟩
    · rw [parsed] at read
      cases read
    · exact ⟨accepted, none⟩
    · rw [parsed] at read
      cases read
  · rintro ⟨accepted, none⟩
    rcases parseWith_of_isAccepted blocks accepted with ⟨_, read⟩ | ⟨name, line, first, _⟩
    · exact read
    · rw [none] at first
      cases first

end Outcome

end Tree

end ComponentMarkdown
