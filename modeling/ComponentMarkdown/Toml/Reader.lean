import ComponentMarkdown.Toml.Scalar

namespace ComponentMarkdown.Toml

def isSpace (c : Char) : Bool := c = ' ' || c = '\t'

def skipSpaces (s : List Char) : List Char := s.dropWhile isSpace

/-- Whether a character may not stand in comments and strings. -/
def isControl (c : Char) : Bool := (c.toNat < 32 && c ≠ '\t') || c = '\x7f'

/-- A text with line feeds as its only line ends. A carriage return alone is an error. -/
def lineFeeds? : List Char → Option (List Char)
  | [] => some []
  | '\r' :: '\n' :: rest => (lineFeeds? rest).map ('\n' :: ·)
  | '\r' :: _ => none
  | c :: rest => (lineFeeds? rest).map (c :: ·)

/-- What follows a comment, if there is one. -/
def skipComment? : List Char → Option (List Char)
  | '#' :: rest =>
    if (rest.takeWhile (· ≠ '\n')).any isControl then none else some (rest.dropWhile (· ≠ '\n'))
  | s => some s

/-- Skips blanks, comments and line ends. -/
def skipLines? : Nat → List Char → Option (List Char)
  | 0, _ => none
  | fuel + 1, s =>
    match skipSpaces s with
    | '\n' :: rest => skipLines? fuel rest
    | '#' :: rest => (skipComment? ('#' :: rest)).bind (skipLines? fuel)
    | rest => some rest

/-- The character of so many hexadecimal digits, and what follows. -/
def hexChar? (count : Nat) (s : List Char) : Option (Char × List Char) := do
  let ds := s.take count
  if ds.length < count then none
  else
    let code ← ds.foldlM (fun n c => (digit? 16 c).map (n * 16 + ·)) 0
    if 0x110000 ≤ code ∨ (0xD800 ≤ code ∧ code < 0xE000) then none
    else some (Char.ofNat code, s.drop count)

/-- The character of an escape behind its backslash, and what follows. -/
def escape? : List Char → Option (Char × List Char)
  | 'b' :: rest => some ('\x08', rest)
  | 't' :: rest => some ('\t', rest)
  | 'n' :: rest => some ('\n', rest)
  | 'f' :: rest => some ('\x0c', rest)
  | 'r' :: rest => some ('\r', rest)
  | 'e' :: rest => some ('\x1b', rest)
  | '\x22' :: rest => some ('\x22', rest)
  | '\\' :: rest => some ('\\', rest)
  | 'x' :: rest => hexChar? 2 rest
  | 'u' :: rest => hexChar? 4 rest
  | 'U' :: rest => hexChar? 8 rest
  | _ => none

/-- The rest of a quoted string. -/
def basic? : Nat → List Char → Option (List Char × List Char)
  | 0, _ | _, [] => none
  | fuel + 1, c :: rest =>
    if c = '\x22' then some ([], rest)
    else if c = '\\' then do
      let (c, rest) ← escape? rest
      let (text, left) ← basic? fuel rest
      return (c :: text, left)
    else if isControl c then none
    else do
      let (text, left) ← basic? fuel rest
      return (c :: text, left)

/-- The rest of a string in single quotes. -/
def literal? : List Char → Option (List Char × List Char)
  | [] => none
  | c :: rest =>
    if c = '\'' then some ([], rest)
    else if isControl c then none
    else (literal? rest).map fun (text, left) => (c :: text, left)

/-- The quotes at the end of a string over several lines: three close it, and up to two in front of
them belong to it. -/
def closing? (quote : Char) (s : List Char) : Option (List Char × List Char) :=
  let count := min 5 (s.takeWhile (· = quote)).length
  if count < 3 then none else some (List.replicate (count - 3) quote, s.drop count)

/-- The blanks behind a backslash at the end of a line, and the lines after it that are blank. -/
def continued? (s : List Char) : Option (List Char) :=
  match skipSpaces s with
  | '\n' :: rest => some (rest.dropWhile fun c => isSpace c || c = '\n')
  | _ => none

/-- The rest of a quoted string over several lines. -/
def longBasic? : Nat → List Char → Option (List Char × List Char)
  | 0, _ | _, [] => none
  | fuel + 1, c :: rest =>
    match closing? '\x22' (c :: rest) with
    | some found => some found
    | none =>
      if c = '\\' then
        match continued? rest with
        | some left => longBasic? fuel left
        | none => do
          let (c, rest) ← escape? rest
          let (text, left) ← longBasic? fuel rest
          return (c :: text, left)
      else if isControl c && c ≠ '\n' then none
      else (longBasic? fuel rest).map fun (text, left) => (c :: text, left)

/-- The rest of a string in single quotes over several lines. -/
def longLiteral? : List Char → Option (List Char × List Char)
  | [] => none
  | c :: rest =>
    match closing? '\'' (c :: rest) with
    | some found => some found
    | none =>
      if isControl c && c ≠ '\n' then none
      else (longLiteral? rest).map fun (text, left) => (c :: text, left)

/-- A text without the line feed at its start. -/
def dropFirstBreak : List Char → List Char
  | '\n' :: rest => rest
  | s => s

/-- A string in any of its four forms. -/
def string? (s : List Char) : Option (List Char × List Char) :=
  match s with
  | '\x22' :: '\x22' :: '\x22' :: rest => longBasic? rest.length.succ (dropFirstBreak rest)
  | '\'' :: '\'' :: '\'' :: rest => longLiteral? (dropFirstBreak rest)
  | '\x22' :: rest => basic? rest.length.succ rest
  | '\'' :: rest => literal? rest
  | _ => none

def isBareChar (c : Char) : Bool := c.isAlphanum || c = '_' || c = '-'

/-- A key without dots: bare, or in quotes on one line. -/
def simpleKey? (s : List Char) : Option (String × List Char) :=
  match s with
  | '\x22' :: rest => (basic? rest.length.succ rest).map fun (key, left) => (String.ofList key, left)
  | '\'' :: rest => (literal? rest).map fun (key, left) => (String.ofList key, left)
  | s =>
    let key := s.takeWhile isBareChar
    if key.isEmpty then none else some (String.ofList key, s.dropWhile isBareChar)

/-- A key with dots, and the blanks behind it. -/
def path? : Nat → List Char → Option (Path × List Char)
  | 0, _ => none
  | fuel + 1, s => do
    let (key, rest) ← simpleKey? s
    match skipSpaces rest with
    | '.' :: rest =>
      let (path, left) ← path? fuel (skipSpaces rest)
      return (⟨key :: path.parents, path.last⟩, left)
    | left => return (⟨[], key⟩, left)

/-- The characters that end a word. -/
def endsWord (c : Char) : Bool := isSpace c || c = '\n' || c = ',' || c = ']' || c = '\x7d' || c = '#'

/-- A word at the start of a text. A date and a time with a blank between them are one word. -/
def word (s : List Char) : List Char × List Char :=
  let first := s.takeWhile (!endsWord ·)
  match s.dropWhile (!endsWord ·) with
  | ' ' :: d :: rest =>
    if d.isDigit && isDate first then
      (first ++ ' ' :: (d :: rest).takeWhile (!endsWord ·), (d :: rest).dropWhile (!endsWord ·))
    else (first, ' ' :: d :: rest)
  | left => (first, left)

mutual

def value? : Nat → List Char → Option (Item × List Char)
  | 0, _ => none
  | fuel + 1, s =>
    match s with
    | '[' :: rest => (items? fuel rest).map fun (items, left) => (.array items, left)
    | '\x7b' :: rest => do
      let (fields, left) ← fields? fuel rest
      let table ← Table.ofInline? fields
      return (table, left)
    | '\x22' :: _ | '\'' :: _ => (string? s).map fun (text, left) => (.str (String.ofList text), left)
    | s =>
      let (first, left) := word s
      (scalar? first).map fun item => (item, left)

/-- The rest of an array. -/
def items? : Nat → List Char → Option (List Item × List Char)
  | 0, _ => none
  | fuel + 1, s => do
    match ← skipLines? s.length.succ s with
    | ']' :: left => return ([], left)
    | s =>
      let (item, rest) ← value? fuel s
      match ← skipLines? rest.length.succ rest with
      | ',' :: rest =>
        let (items, left) ← items? fuel rest
        return (item :: items, left)
      | ']' :: left => return ([item], left)
      | _ => none

/-- The rest of an inline table. -/
def fields? : Nat → List Char → Option (List (Path × Item) × List Char)
  | 0, _ => none
  | fuel + 1, s => do
    match ← skipLines? s.length.succ s with
    | '\x7d' :: left => return ([], left)
    | s =>
      let (path, rest) ← path? s.length.succ s
      match rest with
      | '=' :: rest =>
        let (item, rest) ← value? fuel (skipSpaces rest)
        match ← skipLines? rest.length.succ rest with
        | ',' :: rest =>
          let (fields, left) ← fields? fuel rest
          return ((path, item) :: fields, left)
        | '\x7d' :: left => return ([(path, item)], left)
        | _ => none
      | _ => none

end

/-- A header, between its brackets. -/
def header? (s : List Char) : Option (Statement × List Char) :=
  match s with
  | '[' :: rest => do
    let (path, rest) ← path? rest.length.succ (skipSpaces rest)
    match rest with
    | ']' :: ']' :: left => return (.element path, left)
    | _ => none
  | s => do
    let (path, rest) ← path? s.length.succ (skipSpaces s)
    match rest with
    | ']' :: left => return (.header path, left)
    | _ => none

def statement? (fuel : Nat) (s : List Char) : Option (Statement × List Char) :=
  match s with
  | '[' :: rest => header? rest
  | s => do
    let (path, rest) ← path? s.length.succ s
    match rest with
    | '=' :: rest =>
      let (value, left) ← value? fuel (skipSpaces rest)
      return (.assign path value, left)
    | _ => none

/-- What follows the line that a statement stands on. -/
def lineEnd? (s : List Char) : Option (List Char) := do
  match ← skipComment? (skipSpaces s) with
  | [] => return []
  | '\n' :: rest => return rest
  | _ => none

/-- The statements of a text, each on a line of its own. -/
def statements? : Nat → List Char → Option (List Statement)
  | 0, _ => none
  | fuel + 1, s => do
    match ← skipLines? s.length.succ s with
    | [] => return []
    | s =>
      let (statement, rest) ← statement? s.length.succ s
      let rest ← lineEnd? rest
      let statements ← statements? fuel rest
      return statement :: statements

/-- A text without the mark of its byte order. -/
def dropOrderMark : List Char → List Char
  | '\ufeff' :: rest => rest
  | s => s

/-- The root table of a document. -/
def document? (text : String) : Option Table := do
  let s ← lineFeeds? (dropOrderMark text.toList)
  let statements ← statements? s.length.succ s
  Table.ofStatements? statements

end ComponentMarkdown.Toml
