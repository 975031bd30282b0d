import ComponentMarkdown.CommonMark.Tree

namespace ComponentMarkdown.CommonMark

/-- The characters of a line end. -/
def isLineEnd (c : Char) : Bool := c = '\n' || c = '\r'

/-- The line end at the start of a text, and the text behind it. -/
def lineEnd? : List Char → Option (List Char × List Char)
  | '\n' :: rest => some (['\n'], rest)
  | '\r' :: '\n' :: rest => some (['\r', '\n'], rest)
  | '\r' :: rest => some (['\r'], rest)
  | _ => none

/-- The text behind the end of the line, if the line ends here. -/
def afterLineEnd? (s : List Char) : Option (List Char) :=
  match s with
  | [] => some []
  | s => (lineEnd? s).map Prod.snd

/-- Whether the line ends here. -/
def atLineEnd (s : List Char) : Bool := s.head?.all isLineEnd

/-- The text behind the end of the line, if only blanks are left on it. -/
def afterBlankLine? (s : List Char) : Option (List Char) := afterLineEnd? (s.dropWhile isLineBlank)

/-- The characters up to and with the next line feed, and the text behind it. -/
def takeLine (s : List Char) : List Char × List Char :=
  let line := s.takeWhile (· ≠ '\n')
  match s.drop line.length with
  | c :: rest => (line ++ [c], rest)
  | [] => (line, [])

/-- The characters up to the next line end and with it, and the text behind it. -/
def takeTextLine (s : List Char) : List Char × List Char :=
  let line := s.takeWhile (fun c => !isLineEnd c)
  match lineEnd? (s.drop line.length) with
  | some (ending, rest) => (line ++ ending, rest)
  | none => (line, [])

/-- A place in a line: the column of the next character, the blanks left of a tab in front of it that is partly
used up, the number of characters in front, and the text from here on. A tab reaches to the next column that is a
multiple of four. -/
structure LinePlace where
  column : Nat
  pad : Nat
  passed : Nat
  rest : List Char
deriving DecidableEq, Repr, Inhabited

namespace LinePlace

def start (text : List Char) : LinePlace := ⟨0, 0, 0, text⟩

/-- Moves over at most `n` columns of blanks. Returns the number of columns that are missing. -/
def skipColumns : Nat → Nat → LinePlace → Nat × LinePlace
  | 0, n, place => (n, place)
  | fuel + 1, n, place =>
    if n = 0 then (0, place)
    else if 0 < place.pad then
      let used := min n place.pad
      skipColumns fuel (n - used) { place with pad := place.pad - used }
    else
      match place.rest with
      | ' ' :: rest => skipColumns fuel (n - 1) ⟨place.column + 1, 0, place.passed + 1, rest⟩
      | '\t' :: rest =>
        let width := 4 - place.column % 4
        skipColumns fuel n ⟨place.column + width, width, place.passed + 1, rest⟩
      | _ => (n, place)

/-- Moves over at most `n` columns of blanks. Returns the number of columns. -/
def skipUpTo (place : LinePlace) (n : Nat) : Nat × LinePlace :=
  let (missing, place) := skipColumns (2 * n + 1) n place
  (n - missing, place)

/-- Moves over all spaces and tabs. -/
def skipAll (place : LinePlace) : LinePlace :=
  let blanks := place.rest.takeWhile (fun c => c = ' ' || c = '\t')
  { place with
    pad := 0
    passed := place.passed + blanks.length
    rest := place.rest.drop blanks.length }

/-- Whether the line ends here. -/
def atEnd (place : LinePlace) : Bool := atLineEnd place.rest

/-- Moves over characters other than tabs. -/
def advance (place : LinePlace) (n : Nat) : LinePlace :=
  { place with
    column := place.column + n
    passed := place.passed + n
    rest := place.rest.drop n }

/-- Moves over the mark of a quotation and a blank behind it. -/
def quoteMark? (place : LinePlace) : Option LinePlace :=
  match place.rest with
  | '>' :: _ => some ((place.advance 1).skipUpTo 1).2
  | _ => none

/-- The blanks of a tab that is partly used up. -/
def padding (place : LinePlace) : List Char := List.replicate place.pad ' '

end LinePlace

namespace Container

/-- Moves over what a line needs to go on in containers, outermost first. Returns how many it goes on
in. An item goes on in a line that ends before the column of its text. -/
def goOn : List Container → LinePlace → Nat × LinePlace
  | [], place => (0, place)
  | .quote :: rest, place =>
    match (place.skipUpTo 3).2.quoteMark? with
    | none => (0, place)
    | some inner =>
      let (n, inner) := goOn rest inner
      (n + 1, inner)
  | .item indent :: rest, place =>
    let (skipped, inner) := place.skipUpTo indent
    if skipped = indent ∨ inner.atEnd then
      let (n, inner) := goOn rest inner
      (n + 1, inner)
    else (0, place)
  | .list _ _ _ :: rest, place =>
    let (n, inner) := goOn rest place
    (n + 1, inner)

/-- The text behind the margin of a line, as far as the line goes on in containers. -/
def skipMargin (containers : List Container) (text : List Char) : List Char :=
  (goOn containers (.start text)).2.rest

end Container

end ComponentMarkdown.CommonMark
