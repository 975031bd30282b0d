import ComponentMarkdown.Toml.Reader

namespace ComponentMarkdown.Toml

/-- The longest run of a character, with `current` the length of the run that is open. -/
def longestRun (c : Char) (current : Nat) : List Char → Nat
  | [] => current
  | d :: rest =>
    if d = c then longestRun c (current + 1) rest else max current (longestRun c 0 rest)

/-- Whether a text has a control character, tabs and line feeds aside. -/
def hasControl (s : List Char) : Bool := s.any fun c => isControl c && c ≠ '\n'

/-- A digit of a hexadecimal number, in upper case. -/
def hexDigit (n : Nat) : Char := if n < 10 then Char.ofNat (48 + n) else Char.ofNat (55 + n)

/-- A control character or backslash as an escape, and any other character as itself. -/
def escaped (c : Char) : List Char :=
  if c = '\x08' then ['\\', 'b']
  else if c = '\t' then ['\\', 't']
  else if c = '\n' then ['\\', 'n']
  else if c = '\x0c' then ['\\', 'f']
  else if c = '\r' then ['\\', 'r']
  else if c = '\\' then ['\\', '\\']
  else if isControl c then
    ['\\', 'u', '0', '0', hexDigit (c.toNat / 16), hexDigit (c.toNat % 16)]
  else [c]

/-- A quoted string. -/
def basicText (s : List Char) : List Char :=
  '\x22' :: (s.flatMap (fun c => if c = '\x22' then ['\\', '\x22'] else escaped c) ++ ['\x22'])

def literalText (s : List Char) : List Char := '\'' :: (s ++ ['\''])

/-- The characters of a quoted string over several lines, with `quotes` the number of quotes just
written in a row. The third one is escaped. -/
def longChars (quotes : Nat) : List Char → List Char
  | [] => []
  | c :: rest =>
    if c = '\x22' then
      if quotes = 2 then '\\' :: '\x22' :: longChars 0 rest else '\x22' :: longChars (quotes + 1) rest
    else (if c = '\n' then ['\n'] else escaped c) ++ longChars 0 rest

def longBasicText (s : List Char) : List Char :=
  "\x22\x22\x22\n".toList ++ longChars 0 s ++ "\x22\x22\x22".toList

def longLiteralText (s : List Char) : List Char := "'''\n".toList ++ s ++ "'''".toList

/-- The text of a string, in the first of the forms that needs no escape: quoted, in single quotes, and over
several lines. If every form needs one it is quoted and escaped. -/
def stringText (s : List Char) : List Char :=
  let control := hasControl s
  let escape := s.contains '\\'
  let lines := s.contains '\n'
  if !control && !escape && !s.contains '\x22' && !lines then basicText s
  else if !control && !s.contains '\'' && !lines then literalText s
  else if !control && !escape && longestRun '\x22' 0 s ≤ 2 then longBasicText s
  else if !control && longestRun '\'' 0 s ≤ 2 then longLiteralText s
  else if lines then longBasicText s
  else basicText s

/-- The text of a key. -/
def keyText (s : List Char) : List Char :=
  let control := hasControl s || s.contains '\n'
  if !s.isEmpty && s.all isBareChar then s
  else if !control && !s.contains '\\' && !s.contains '\x22' then basicText s
  else if !control && !s.contains '\'' then literalText s
  else basicText s

/-- A line that sets a key. -/
def assignment (key value : List Char) : List Char := keyText key ++ " = ".toList ++ value ++ ['\n']

/-- A table with its header. -/
def section_ (header : String) (lines : List (List Char)) : List Char :=
  '[' :: (header.toList ++ ']' :: '\n' :: lines.flatten)

end ComponentMarkdown.Toml
