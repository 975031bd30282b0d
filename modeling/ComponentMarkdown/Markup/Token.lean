import ComponentMarkdown.Text.Blank
import ComponentMarkdown.Text.Lines
import ComponentMarkdown.Text.WordChar

namespace ComponentMarkdown

/-- What a line is: a line may open a component, close one, start a slot, or be markdown. -/
inductive TokenKind where
  | markdown
  | componentOpen (depth : Nat) (name : String) (attrs : Option String)
  | componentClose (depth : Nat)
  | slot (name : String)
deriving DecidableEq, Repr, Inhabited

/-- A line of the body without its line end, with its number, counted from one. -/
structure Token where
  kind : TokenKind
  raw : String
  line : Nat
deriving DecidableEq, Repr, Inhabited

namespace Token

/-- A code fence that is open: its character and how often it was written. -/
structure Fence where
  marker : Char
  length : Nat
deriving DecidableEq, Repr, Inhabited

/-- The line without its indentation, if that is at most three blanks. -/
def unindented? (line : List Char) : Option (List Char) :=
  if (line.takeWhile (· = ' ')).length ≤ 3 then some (line.dropWhile (· = ' ')) else none

/-- The fence that a line opens: at least three backticks or tildes. The text behind backticks has
none. -/
def opensFence? (line : List Char) : Option Fence :=
  match unindented? line with
  | some (marker :: rest) =>
    if marker = '\x60' ∨ marker = '~' then
      let length := ((marker :: rest).takeWhile (· = marker)).length
      if length < 3 then none
      else if marker = '\x60' ∧ '\x60' ∈ rest.dropWhile (· = marker) then none
      else some ⟨marker, length⟩
    else none
  | _ => none

/-- Whether a line closes a fence: the same character at least as often, and only blanks behind. -/
def closesFence (fence : Fence) (line : List Char) : Bool :=
  match unindented? line with
  | some rest =>
    fence.length ≤ (rest.takeWhile (· = fence.marker)).length
      && Text.allBlank (rest.dropWhile (· = fence.marker))
  | none => false

/-- The characters of a name after the first. -/
def isNameChar (c : Char) : Bool := Text.isWordChar c || c = '-'

/-- A name at the start of a text, an ASCII letter and name characters, and what follows it. -/
def name? (s : List Char) : Option (List Char × List Char) :=
  match s with
  | c :: rest =>
    if c.isAlpha then some (c :: rest.takeWhile isNameChar, rest.dropWhile isNameChar) else none
  | [] => none

/-- What may stand behind the name of a component: blanks, or a text in braces. -/
def blockAttrs? (s : List Char) : Option (Option (List Char)) :=
  match Text.trim s with
  | [] => some none
  | '\x7b' :: rest => if rest.getLast? = some '\x7d' then some (some ('\x7b' :: rest)) else none
  | _ => none

/-- A line of at least two colons: alone they close a component, before a name they open one. -/
def fromColons? (line : List Char) : Option TokenKind :=
  let depth := (line.takeWhile (· = ':')).length
  let rest := line.dropWhile (· = ':')
  if depth < 2 then none
  else if Text.allBlank rest then some (.componentClose depth)
  else do
    let (name, rest) ← name? rest
    let attrs ← blockAttrs? rest
    return .componentOpen depth (String.ofList name) (attrs.map String.ofList)

/-- A number sign and a name start a slot. -/
def fromNumberSign? : List Char → Option TokenKind
  | '#' :: rest => do
    let (name, rest) ← name? rest
    if Text.allBlank rest then some (.slot (String.ofList name)) else none
  | _ => none

/-- What a line outside code fences is. -/
def classify (line : List Char) : TokenKind :=
  match fromColons? line with
  | some kind => kind
  | none => (fromNumberSign? line).getD .markdown

/-- What a line is, given the fence that is open, and the fence that is open behind it. -/
def step (fence : Option Fence) (line : List Char) : TokenKind × Option Fence :=
  match fence with
  | some open_ => (.markdown, if closesFence open_ line then none else some open_)
  | none =>
    match opensFence? line with
    | some opened => (.markdown, some opened)
    | none => (classify line, none)

/-- The tokens of lines of which the first has the given number. -/
def ofLines (fence : Option Fence) (number : Nat) : List (List Char) → List Token
  | [] => []
  | line :: rest =>
    let (kind, fence) := step fence line
    ⟨kind, String.ofList line, number⟩ :: ofLines fence (number + 1) rest

/-- The tokens of a document body. -/
def tokenize (body : String) : List Token := ofLines none 1 (Text.lines body.toList)

end Token

end ComponentMarkdown
