import ComponentMarkdown.Proofs.Markup.LineEnds
import ComponentMarkdown.Proofs.Markup.ParseOutcome
import ComponentMarkdown.Proofs.Markup.Token
import Mathlib.Data.List.Forall2
import Mathlib.Data.List.Induction

namespace ComponentMarkdown

namespace Text

theorem linesOfParts_ne_nil {parts : List (List Char)} (long : 2 ≤ parts.length) : linesOfParts parts ≠ [] := by
  match parts with
  | line :: next :: rest => simp [linesOfParts]

/-- The lines of a text of which some parts are cut off at the end. -/
theorem lines_join_append {front back : List (List Char)} (long : 2 ≤ front.length)
    (none : ∀ part ∈ front ++ back, '\n' ∉ part) : ∃ above, above ≠ [] ∧
      lines (join ['\n'] (front ++ back)) = above ++ lines (join ['\n'] back) := by
  have some : front ++ back ≠ [] := by
    rintro empty
    simp [(List.append_eq_nil_iff.1 empty).1] at long
  rw [lines, splitOn_join some none]
  by_cases last : back = []
  · subst last
    rw [List.append_nil]
    exact ⟨linesOfParts front, linesOfParts_ne_nil long, (List.append_nil _).symm⟩
  · refine ⟨front.map dropReturn, ?_, ?_⟩
    · rintro empty
      simp [List.map_eq_nil_iff.1 empty] at long
    · rw [linesOfParts_append front last, lines,
        splitOn_join last fun part member => none part (List.mem_append_right _ member)]

end Text

namespace Frontmatter

/-- The lines of the body are the last lines of the document, and the lines above them are those of the block. -/
theorem exists_lines_above (source : String) : ∃ above,
    Text.lines source.toList = above ++ Text.lines (split source).body.toList ∧
      (above = [] ↔ (split source).yaml = none) := by
  rcases split_cases source with bare | ⟨yaml, front, back, parts, long, cut⟩
  · rw [bare]
    exact ⟨[], rfl, by simp⟩
  · have oneLine : ∀ part ∈ front ++ back, '\n' ∉ part := fun part member =>
      Text.not_mem_of_mem_splitOn (by rwa [parts])
    obtain ⟨above, some, lines⟩ := Text.lines_join_append long oneLine
    rw [← parts, Text.join_splitOn] at lines
    rw [cut, String.toList_ofList]
    exact ⟨above, lines, by simp [some]⟩

/-- How many lines of a document stand above its body. -/
def linesAbove (source : String) : Nat :=
  (Text.lines source.toList).length - (Text.lines (split source).body.toList).length

theorem drop_linesAbove (source : String) :
    (Text.lines source.toList).drop (linesAbove source) = Text.lines (split source).body.toList := by
  obtain ⟨above, lines, _⟩ := exists_lines_above source
  rw [linesAbove, lines, List.length_append, Nat.add_sub_cancel, List.drop_left]

theorem linesAbove_eq_zero_iff (source : String) : linesAbove source = 0 ↔ (split source).yaml = none := by
  obtain ⟨above, lines, bare⟩ := exists_lines_above source
  rw [← bare, linesAbove, lines, List.length_append, Nat.add_sub_cancel, List.length_eq_zero_iff]

end Frontmatter

namespace Token

/-- The tokens of lines are numbered one after the other. -/
theorem of_ofLines {fence : Option Fence} {number : Nat} {lines : List (List Char)} {before after : List Token}
    {token : Token} (tokens : ofLines fence number lines = before ++ token :: after) :
    token.line = number + before.length ∧ lines[before.length]? = some token.raw.toList := by
  induction before generalizing fence number lines with
  | nil =>
    cases lines with
    | nil => cases tokens
    | cons line rest =>
      rw [ofLines_step, List.nil_append, List.cons.injEq] at tokens
      obtain ⟨rfl, _⟩ := tokens
      exact ⟨rfl, by simp⟩
  | cons first more ih =>
    cases lines with
    | nil => cases tokens
    | cons line rest =>
      rw [ofLines_step, List.cons_append, List.cons.injEq] at tokens
      obtain ⟨number', here⟩ := ih tokens.2
      refine ⟨by rw [number', List.length_cons]; omega, ?_⟩
      rw [List.length_cons, List.getElem?_cons_succ, here]

/-- Whether a token opens a component, of the given name and in the given line. -/
def Opens (token : Token) (entry : String × Nat) : Prop :=
  ∃ depth block, token.kind = .componentOpen depth entry.1 block ∧ token.line = entry.2

/-- Tokens that close just the components that they open. -/
inductive IsBalanced : List Token → Prop
  | nil : IsBalanced []
  | markdown {token} : token.kind = .markdown → IsBalanced [token]
  | slot {token name} : token.kind = .slot name → IsBalanced [token]
  | component {first last inside entry depth} : first.Opens entry → IsBalanced inside →
      last.kind = .componentClose depth → IsBalanced (first :: (inside ++ [last]))
  | append {front back} : IsBalanced front → IsBalanced back → IsBalanced (front ++ back)

/-- Tokens with those that open the components that stay open, the innermost first: what stands behind such a token
is balanced, up to the next one. -/
inductive LeavesOpen : List Token → List Token → Prop
  | none (tokens) : LeavesOpen tokens []
  | more {before openers token after} : LeavesOpen before openers → IsBalanced after →
      LeavesOpen (before ++ token :: after) (token :: openers)

theorem LeavesOpen.append {tokens openers more : List Token} (leaves : LeavesOpen tokens openers)
    (balanced : IsBalanced more) : LeavesOpen (tokens ++ more) openers := by
  cases leaves with
  | none => exact .none _
  | @more before openers token after outer behind =>
    rw [List.append_assoc, List.cons_append]
    exact .more outer (.append behind balanced)

/-- The components that are open behind tokens are those that the tokens leave open. -/
theorem exists_leavesOpen (tokens : List Token) : ∃ openers, LeavesOpen tokens openers ∧
    List.Forall₂ Opens openers (tokens.foldl openBehind []) := by
  induction tokens using List.reverseRecOn with
  | nil => exact ⟨[], .none _, .nil⟩
  | append_singleton tokens token ih =>
    obtain ⟨openers, leaves, entries⟩ := ih
    rw [List.foldl_append, List.foldl_cons, List.foldl_nil]
    cases kind : token.kind with
    | markdown =>
      rw [openBehind, kind]
      exact ⟨openers, leaves.append (.markdown kind), entries⟩
    | slot name =>
      rw [openBehind, kind]
      exact ⟨openers, leaves.append (.slot kind), entries⟩
    | componentOpen depth name block =>
      rw [openBehind, kind]
      exact ⟨token :: openers, .more leaves .nil, .cons ⟨depth, block, kind, rfl⟩ entries⟩
    | componentClose depth =>
      rw [openBehind, kind]
      generalize tokens.foldl openBehind [] = opened at entries
      cases entries with
      | nil => exact ⟨[], .none _, .nil⟩
      | @cons opener entry openers rest opens entries =>
        cases leaves with
        | @more before _ _ after outer behind =>
          -- The component that ends is balanced, and stands behind what opens the one around it.
          rw [List.append_assoc, List.cons_append]
          exact ⟨openers, outer.append (.component opens behind kind), entries⟩

/-- Whether tokens are rejected for the component that is opened by the token between `before` and `after`: it is
the first whose attribute block is none, or it is not closed, but everything opened behind it is. -/
inductive IsRejected (before : List Token) (token : Token) (after : List Token) : ParseError → Prop
  | invalidAttributes {name line cause} : (∀ other ∈ before, other.IsAccepted) → token.Rejects name cause →
      IsRejected before token after (.invalidAttributes name line cause)
  | unclosedComponent {name line depth block} : token.kind = .componentOpen depth name block → IsBalanced after →
      IsRejected before token after (.unclosedComponent name line)

end Token

/-- The line that an error reports. -/
def ParseError.line : ParseError → Nat
  | unclosedComponent _ line => line
  | invalidAttributes _ line _ => line

namespace Tree

open Token (IsRejected)
open Frontmatter (linesAbove)

theorem exists_rejected {source : String} {error : ParseError} (failed : parse source = .error error) :
    ∃ before token after, tokens source = before ++ token :: after ∧ IsRejected before token after error ∧
      error.line = token.line := by
  rcases parseWith_cases Markdown.parse source
    with ⟨before, token, after, name, cause, cut, earlier, rejected, parsed⟩ |
    ⟨_, _, tree, parsed⟩ | ⟨_, name, line, innermost, parsed⟩
  all_goals
    rw [parse, parsed] at failed
    cases failed
  · exact ⟨before, token, after, cut, .invalidAttributes earlier rejected, rfl⟩
  · obtain ⟨openers, leaves, entries⟩ := Token.exists_leavesOpen (tokens source)
    obtain ⟨rest, same⟩ := List.head?_eq_some_iff.1 innermost
    rw [same] at entries
    generalize tokens source = all at leaves
    cases entries with
    | @cons token _ _ _ opens _ =>
      obtain ⟨depth, block, kind, number⟩ := opens
      cases leaves with
      | @more before _ _ after _ behind =>
        exact ⟨before, token, after, rfl, .unclosedComponent kind behind, number.symm⟩

/-- An error reports the line that opens the component it names, counted from the first line of the body. In the
document that line stands behind the lines of the frontmatter block, so its number is the reported one if and only
if there is no such block. -/
theorem parse_error_line {source : String} {error : ParseError} (failed : parse source = .error error) :
    ∃ before token after, tokens source = before ++ token :: after ∧ IsRejected before token after error ∧
      (Text.lines source.toList)[linesAbove source + before.length]? = some token.raw.toList ∧
      error.line = before.length + 1 ∧
      (error.line = linesAbove source + before.length + 1 ↔ (Frontmatter.split source).yaml = none) := by
  obtain ⟨before, token, after, cut, rejected, reported⟩ := exists_rejected failed
  obtain ⟨number, here⟩ := Token.of_ofLines cut
  rw [← Frontmatter.drop_linesAbove, List.getElem?_drop] at here
  refine ⟨before, token, after, cut, rejected, here, by omega, ?_⟩
  rw [← Frontmatter.linesAbove_eq_zero_iff]
  omega

/-- Two components that are not closed and one that is, behind a block. The inner one of the two is opened in line
five. -/
theorem parse_error_line_nested :
    let source := "---\r\na: b\r\n---\r\n::grid\r\n:::card\r\n#s\r\n::::x\r\n::::\r\n"
    parse source = .error (.unclosedComponent "card" 2) ∧
      ∃ before token after, tokens source = before ++ token :: after ∧
        IsRejected before token after (.unclosedComponent "card" 2) ∧
        (Text.lines source.toList)[linesAbove source + before.length]? = some token.raw.toList ∧
        2 = before.length + 1 ∧
          (2 = linesAbove source + before.length + 1 ↔ (Frontmatter.split source).yaml = none) := by
  have failed : parse "---\r\na: b\r\n---\r\n::grid\r\n:::card\r\n#s\r\n::::x\r\n::::\r\n" =
      .error (.unclosedComponent "card" 2) := by
    rw [parse, parseWith_eq]
    rfl
  exact ⟨failed, parse_error_line failed⟩

/-- Behind a block of three lines the fourth line of a document is reported as the first. -/
theorem parse_error_line_titled :
    parse "---\ntitle: x\n---\n::card\n" = .error (.unclosedComponent "card" 1) ∧
      Text.lines "---\ntitle: x\n---\n::card\n".toList =
        ["---".toList, "title: x".toList, "---".toList, "::card".toList] ∧
      (Token.tokenize "---\ntitle: x\n---\n::card\n").map Token.kind =
        [.markdown, .markdown, .markdown, .componentOpen 2 "card" none] := by
  refine ⟨?_, by decide, by decide⟩
  rw [parse, parseWith_eq]
  rfl

end Tree

end ComponentMarkdown
