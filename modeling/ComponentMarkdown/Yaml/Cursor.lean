import ComponentMarkdown.Yaml.Printer

namespace ComponentMarkdown.Yaml

/-- A place in a YAML text: the characters that are left, with the line and the column of the first. -/
structure Cursor where
  rest : List Char
  line : Nat
  column : Nat
deriving DecidableEq, Repr, Inhabited

namespace Cursor

def start (text : List Char) : Cursor := ⟨text, 0, 0⟩

/-- Whether the next characters are these. -/
def sees (cursor : Cursor) (s : List Char) : Bool := s.isPrefixOf cursor.rest

def peek? (cursor : Cursor) : Option Char := cursor.rest.head?

/-- Whether the next character belongs to a class. -/
def next (cursor : Cursor) (p : Char → Bool) : Bool := cursor.rest.head?.any p

/-- Moves over `n` characters of the line. -/
def skip (cursor : Cursor) (n : Nat) : Cursor :=
  { cursor with rest := cursor.rest.drop n, column := cursor.column + n }

/-- Moves over the characters of the line that belong to a class. -/
def skipWhile (cursor : Cursor) (p : Char → Bool) : Cursor :=
  cursor.skip (cursor.rest.takeWhile p).length

/-- Moves over a line break, which may be a carriage return with a line feed behind it. -/
def skipLine (cursor : Cursor) : Cursor :=
  match cursor.rest with
  | '\r' :: '\n' :: rest => ⟨rest, cursor.line + 1, 0⟩
  | _ :: rest => ⟨rest, cursor.line + 1, 0⟩
  | [] => cursor

/-- What a line break counts as: a line feed, except for the two separators of Unicode. -/
def breakText (cursor : Cursor) : List Char :=
  match cursor.rest with
  | c :: _ => if c = '\u2028' ∨ c = '\u2029' then [c] else ['\n']
  | [] => []

def atBreak (cursor : Cursor) : Bool := cursor.next isBreak

def atEnd (cursor : Cursor) : Bool := cursor.rest.isEmpty

/-- Whether a blank, a tab, a break or the end of the text comes after `n` characters. -/
def blankAt (cursor : Cursor) (n : Nat) : Bool := blankFollows (cursor.rest.drop n)

/-- Whether a line starts here that separates documents. -/
def atDocumentMark (cursor : Cursor) : Bool :=
  cursor.column = 0 && (cursor.sees ['-', '-', '-'] || cursor.sees ['.', '.', '.'])
    && cursor.blankAt 3

end Cursor

def isTabOrSpace (c : Char) : Bool := c = ' ' || c = '\t'

end ComponentMarkdown.Yaml
