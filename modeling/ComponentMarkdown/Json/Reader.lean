import ComponentMarkdown.Json.Written

namespace ComponentMarkdown.Json

/-- The characters that may stand between tokens. -/
def isBlank (c : Char) : Bool := c = ' ' || c = '\n' || c = '\t' || c = '\r'

def skipBlanks (s : List Char) : List Char := s.dropWhile isBlank

/-- The value of a hexadecimal digit. -/
def hexValue? (c : Char) : Option Nat :=
  if '0' ≤ c ∧ c ≤ '9' then some (c.toNat - 48)
  else if 'a' ≤ c ∧ c ≤ 'f' then some (c.toNat - 87)
  else if 'A' ≤ c ∧ c ≤ 'F' then some (c.toNat - 55)
  else none

/-- The four digits of a `\u` escape. -/
def hexUnit? (a b c d : Char) : Option Nat := do
  let a ← hexValue? a
  let b ← hexValue? b
  let c ← hexValue? c
  let d ← hexValue? d
  return ((a * 16 + b) * 16 + c) * 16 + d

/-- The character of a one-letter escape. -/
def shortEscape? (c : Char) : Option Char :=
  if c = '\x22' ∨ c = '\\' ∨ c = '/' then some c
  else if c = 'b' then some '\x08'
  else if c = 'f' then some '\x0c'
  else if c = 'n' then some '\n'
  else if c = 'r' then some '\r'
  else if c = 't' then some '\t'
  else none

/-- The units of a string literal after its opening quote, up to and including the closing one.
Control characters have to be escaped. -/
def stringBody? : List Char → Option (List StringUnit × List Char)
  | [] => none
  | '\x22' :: rest => some ([], rest)
  | '\\' :: 'u' :: a :: b :: c :: d :: rest => do
    let unit ← hexUnit? a b c d
    let (units, left) ← stringBody? rest
    return (.escaped unit :: units, left)
  | '\\' :: e :: rest => do
    let c ← shortEscape? e
    let (units, left) ← stringBody? rest
    return (.char c :: units, left)
  | c :: rest =>
    if c.val < 32 ∨ c = '\\' then none
    else do
      let (units, left) ← stringBody? rest
      return (.char c :: units, left)

/-- One or more digits. -/
def digits? (s : List Char) : Option (List Char × List Char) :=
  match s.span Char.isDigit with
  | ([], _) => none
  | found => some found

/-- The digits before the point: a single zero, or digits that do not start with one. -/
def wholePart? : List Char → Option (List Char × List Char)
  | '0' :: c :: rest => if c.isDigit then none else some (['0'], c :: rest)
  | s => digits? s

def fractionPart? : List Char → Option (Option (List Char) × List Char)
  | '.' :: rest => (digits? rest).map (fun (ds, left) => (some ds, left))
  | s => some (none, s)

def exponentPart? : List Char → Option (Option (Bool × List Char) × List Char)
  | c :: rest =>
    if c = 'e' ∨ c = 'E' then
      let (down, rest) := match rest with
        | '+' :: rest => (false, rest)
        | '-' :: rest => (true, rest)
        | rest => (false, rest)
      (digits? rest).map (fun (ds, left) => (some (down, ds), left))
    else some (none, c :: rest)
  | [] => some (none, [])

/-- A number literal. -/
def number? (s : List Char) : Option (NumberLiteral × List Char) := do
  let (negative, s) := match s with
    | '-' :: rest => (true, rest)
    | s => (false, s)
  let (whole, s) ← wholePart? s
  let (fraction, s) ← fractionPart? s
  let (exponent, s) ← exponentPart? s
  return (⟨negative, whole, fraction, exponent⟩, s)

mutual

/-- A value, with the blanks in front of it. -/
def writtenValue? : Nat → List Char → Option (Written × List Char)
  | 0, _ => none
  | fuel + 1, s =>
    match skipBlanks s with
    | 'n' :: 'u' :: 'l' :: 'l' :: rest => some (.null, rest)
    | 't' :: 'r' :: 'u' :: 'e' :: rest => some (.bool true, rest)
    | 'f' :: 'a' :: 'l' :: 's' :: 'e' :: rest => some (.bool false, rest)
    | '\x22' :: rest => (stringBody? rest).map (fun (units, left) => (.str units, left))
    | '[' :: rest =>
      match skipBlanks rest with
      | ']' :: left => some (.arr [], left)
      | inside => (writtenItems? fuel inside).map (fun (items, left) => (.arr items, left))
    | '\x7b' :: rest =>
      match skipBlanks rest with
      | '\x7d' :: left => some (.obj [], left)
      | inside => (writtenFields? fuel inside).map (fun (fields, left) => (.obj fields, left))
    | s => (number? s).map (fun (literal, left) => (.num literal, left))

/-- The items of a nonempty array, up to and including the closing bracket. -/
def writtenItems? : Nat → List Char → Option (List Written × List Char)
  | 0, _ => none
  | fuel + 1, s => do
    let (item, rest) ← writtenValue? fuel s
    match skipBlanks rest with
    | ',' :: rest =>
      let (items, left) ← writtenItems? fuel rest
      return (item :: items, left)
    | ']' :: left => return ([item], left)
    | _ => none

/-- The fields of a nonempty object, up to and including the closing brace. -/
def writtenFields? : Nat → List Char → Option (List (List StringUnit × Written) × List Char)
  | 0, _ => none
  | fuel + 1, s =>
    match skipBlanks s with
    | '\x22' :: rest => do
      let (key, rest) ← stringBody? rest
      match skipBlanks rest with
      | ':' :: rest =>
        let (item, rest) ← writtenValue? fuel rest
        match skipBlanks rest with
        | ',' :: rest =>
          let (fields, left) ← writtenFields? fuel rest
          return ((key, item) :: fields, left)
        | '\x7d' :: left => return ([(key, item)], left)
        | _ => none
      | _ => none
    | _ => none

end

/-- The written tree of a whole text: one value, and only blanks around it. The bound on the number of calls is
above the length of the text. -/
def written? (s : String) : Option Written := do
  let text := s.toList
  let (tree, rest) ← writtenValue? (text.length + 1) text
  if skipBlanks rest = [] then some tree else none

/-- The value of a JSON text. -/
def value? (s : String) : Option Value := (written? s).bind Written.value?

end ComponentMarkdown.Json
