import ComponentMarkdown.Yaml.Reader
import ComponentMarkdown.Text.Blank
import ComponentMarkdown.Text.Lines

namespace ComponentMarkdown.Frontmatter

/-- A document cut into the text of its frontmatter block, if it has one, and what follows. -/
structure Split where
  yaml : Option String
  body : String
deriving DecidableEq, Repr, Inhabited

/-- Whether a line is three dashes with only blanks and tabs behind them. A carriage return belongs
to the line end only when a line feed follows. -/
def isMark (ended : Bool) (line : List Char) : Bool :=
  match (if ended then Text.dropReturn line else line) with
  | '-' :: '-' :: '-' :: rest => rest.all (fun c => c = ' ' || c = '\t')
  | _ => false

/-- The lines behind the first of all, if that is a mark. -/
def mark? : List (List Char) → Option (List (List Char))
  | [] => none
  | line :: rest => if isMark (!rest.isEmpty) line then some rest else none

/-- As few lines as possible in front of what `next` finds, perhaps none. -/
def lazily {α : Type} (next : List (List Char) → Option α) : List (List Char) → Option (List (List Char) × α)
  | [] => (next []).map fun found => ([], found)
  | line :: rest =>
    match next (line :: rest) with
    | some found => some ([], found)
    | none => (lazily next rest).map fun (before, found) => (line :: before, found)

/-- A group of lines in front of what `next` finds: one line and as few others as possible. -/
def group? {α : Type} (next : List (List Char) → Option α) : List (List Char) → Option (List (List Char) × α)
  | [] => none
  | line :: rest => (lazily next rest).map fun (before, found) => (line :: before, found)

/-- A group of lines that may be left out, in front of what `next` finds. There is rather one than none, even where
`next` finds something at once. -/
def optionalGroup? {α : Type} (next : List (List Char) → Option α) (lines : List (List Char)) :
    Option (List (List Char) × α) :=
  group? next lines <|> (next lines).map fun found => ([], found)

def joined (lines : List (List Char)) : List Char := Text.join ['\n'] lines

/-- The text of lines, without the line end of the last one. -/
def textOf (lines : List (List Char)) : List Char := Text.dropReturn (joined lines)

/-- The text of the block that the lines behind the opening mark start with, and what follows its closing mark. -/
def block? (lines : List (List Char)) : Option (List Char × List Char) :=
  (optionalGroup? mark? lines).map fun (block, after) => (textOf block, joined after)

/-- Cuts the frontmatter block off a document: the lines between two lines of three dashes, whatever they hold. -/
def split (source : String) : Split :=
  match Text.splitOn '\n' source.toList with
  | opening :: first :: rest =>
    if isMark true opening then
      match block? (first :: rest) with
      | some (yaml, body) => ⟨some (String.ofList yaml), String.ofList body⟩
      | none => ⟨none, source⟩
    else ⟨none, source⟩
  | _ => ⟨none, source⟩

/-- What the text of a block stands for: a map, or the text itself when it is no YAML for one. A block
without content is an empty map. -/
def decode (yaml : String) : Value :=
  if Text.allBlank yaml.toList then .obj []
  else
    match Yaml.value? yaml with
    | some (.obj fields) => .obj fields
    | some .null => .obj []
    | _ => .str yaml

end ComponentMarkdown.Frontmatter
