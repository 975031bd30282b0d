import ComponentMarkdown.Text.Blank
import ComponentMarkdown.Value

namespace ComponentMarkdown.WordDiff

/-- Whether a piece of the updated text was there before. -/
inductive SpanKind where
  | unchanged
  | added
deriving DecidableEq, Repr, Inhabited

/-- A piece of the updated text. -/
structure Span where
  kind : SpanKind
  text : List Char
deriving DecidableEq, Repr, Inhabited

/-- A span as JSON. -/
def Span.toValue (span : Span) : Value :=
  let kind := match span.kind with
    | .unchanged => "unchanged"
    | .added => "added"
  .obj [("type", .str kind), ("text", .str (String.ofList span.text))]

/-- The tokens of a text: maximal runs of blanks and of other characters. -/
def tokens (s : List Char) : List (List Char) :=
  s.splitBy (fun a b => Text.isBlank a == Text.isBlank b)

/-- Row behind row, an entry for every place in one list of tokens and every place in another, the places behind
their last tokens included. -/
abbrev Table := Array Nat

namespace Table

/-- Where the entry of the places `i` and `j` stands. -/
def index (updated : Array (List Char)) (i j : Nat) : Nat := i * (updated.size + 1) + j

/-- The entry of the places `i` and `j`. -/
def entry (updated : Array (List Char)) (table : Table) (i j : Nat) : Nat := table.getD (index updated i j) 0

/-- Fills in how many tokens can stay from the places `i` and `j` on, from the entries behind them. -/
def fill (earlier updated : Array (List Char)) (i j : Nat) (table : Table) : Table :=
  table.setIfInBounds (index updated i j) <|
    if earlier[i]? = updated[j]? then entry updated table (i + 1) (j + 1) + 1
    else max (entry updated table (i + 1) j) (entry updated table i (j + 1))

/-- Fills in a row from its end. -/
def fillRow (earlier updated : Array (List Char)) (i : Nat) (table : Table) : Table :=
  (List.range updated.size).foldr (fill earlier updated i) table

/-- How many tokens can stay, from every two places on: the last row is filled in first. -/
def ofTokens (earlier updated : Array (List Char)) : Table :=
  (List.range earlier.size).foldr (fillRow earlier updated)
    (Array.replicate ((earlier.size + 1) * (updated.size + 1)) 0)

end Table

/-- Adds a token behind spans that stand back to front, to the last one if both are of one kind. -/
def pushSpan (spans : List Span) (token : Span) : List Span :=
  match spans with
  | [] => [token]
  | last :: front =>
    if last.kind = token.kind then ⟨last.kind, last.text ++ token.text⟩ :: front else token :: last :: front

/-- Goes through the tokens from the places `i` and `j` on. Equal tokens stay; of two that differ, the one in the
earlier text is left out if as many can stay without it, and otherwise the one in the updated text is new. -/
def walk (earlier updated : Array (List Char)) (table : Table) (i j : Nat) (spans : List Span) : List Span :=
  if inside : j < updated.size then
    if earlier[i]? = some updated[j] then
      walk earlier updated table (i + 1) (j + 1) (pushSpan spans ⟨.unchanged, updated[j]⟩)
    else if i < earlier.size ∧ table.entry updated i (j + 1) ≤ table.entry updated (i + 1) j then
      walk earlier updated table (i + 1) j spans
    else walk earlier updated table i (j + 1) (pushSpan spans ⟨.added, updated[j]⟩)
  else spans.reverse
termination_by (earlier.size - i) + (updated.size - j)

/-- The number of tokens up to which texts are compared. -/
def defaultLimit : Nat := 2000

end WordDiff

/-- What was added to a text, word by word: the updated text in spans that were there before and spans that are
new. Both texts are cut into words and the blanks between them, and as many of these tokens as possible stay. What
was removed is not shown. Texts of more tokens than the limit are not compared. -/
def wordDiff (limit : Nat) (earlier updated : String) : List WordDiff.Span :=
  let a := (WordDiff.tokens earlier.toList).toArray
  let b := (WordDiff.tokens updated.toList).toArray
  if limit < a.size ∨ limit < b.size then []
  else WordDiff.walk a b (.ofTokens a b) 0 0 []

end ComponentMarkdown
