import ComponentMarkdown.Attrs
import ComponentMarkdown.Text.Lines

namespace ComponentMarkdown.Json

/-- A digit of a hexadecimal number, in lower case. -/
def hexDigit (n : Nat) : Char :=
  if n < 10 then Char.ofNat (48 + n) else Char.ofNat (87 + n)

/-- A character inside a quoted string. Quotes, backslashes and the control characters below the
blank are escaped, five of the latter by a letter. -/
def escape (c : Char) : List Char :=
  if c = '\x22' then ['\\', '\x22']
  else if c = '\\' then ['\\', '\\']
  else if c = '\x08' then ['\\', 'b']
  else if c = '\x0c' then ['\\', 'f']
  else if c = '\n' then ['\\', 'n']
  else if c = '\r' then ['\\', 'r']
  else if c = '\t' then ['\\', 't']
  else if c.val < 32 then ['\\', 'u', '0', '0', hexDigit (c.toNat / 16), hexDigit (c.toNat % 16)]
  else [c]

/-- A string in quotes. -/
def quoted (s : String) : List Char := '\x22' :: (s.toList.flatMap escape ++ ['\x22'])

/-- A number: integers plainly, doubles by their shortest text. -/
def numberText : Number → List Char
  | .int value => value.repr.toList
  | .float value => DoubleFormat.json.text value

mutual

/-- The text of a value without blanks. -/
def compact : Value → List Char
  | .null => ['n', 'u', 'l', 'l']
  | .bool true => ['t', 'r', 'u', 'e']
  | .bool false => ['f', 'a', 'l', 's', 'e']
  | .num value => numberText value
  | .str value => quoted value
  | .arr items => '[' :: (Text.join [','] (compactItems items) ++ [']'])
  | .obj fields => '\x7b' :: (Text.join [','] (compactFields fields) ++ ['\x7d'])

def compactItems : List Value → List (List Char)
  | [] => []
  | v :: rest => compact v :: compactItems rest

def compactFields : List (String × Value) → List (List Char)
  | [] => []
  | (key, v) :: rest => (quoted key ++ ':' :: compact v) :: compactFields rest

end

/-- A line break followed by the blanks of a nesting depth. -/
def lineBreak (depth : Nat) : List Char := '\n' :: List.replicate (2 * depth) ' '

mutual

/-- The indented text of a value that stands at a nesting depth. -/
def indented (depth : Nat) : Value → List Char
  | .arr [] => ['[', ']']
  | .obj [] => ['\x7b', '\x7d']
  | .arr items =>
    '[' :: (lineBreak (depth + 1)
      ++ Text.join (',' :: lineBreak (depth + 1)) (indentedItems (depth + 1) items)
      ++ lineBreak depth ++ [']'])
  | .obj fields =>
    '\x7b' :: (lineBreak (depth + 1)
      ++ Text.join (',' :: lineBreak (depth + 1)) (indentedFields (depth + 1) fields)
      ++ lineBreak depth ++ ['\x7d'])
  | .null => ['n', 'u', 'l', 'l']
  | .bool true => ['t', 'r', 'u', 'e']
  | .bool false => ['f', 'a', 'l', 's', 'e']
  | .num value => numberText value
  | .str value => quoted value

def indentedItems (depth : Nat) : List Value → List (List Char)
  | [] => []
  | v :: rest => indented depth v :: indentedItems depth rest

def indentedFields (depth : Nat) : List (String × Value) → List (List Char)
  | [] => []
  | (key, v) :: rest =>
    (quoted key ++ ':' :: ' ' :: indented depth v) :: indentedFields depth rest

end

end ComponentMarkdown.Json

namespace ComponentMarkdown.Value

/-- The value as JSON text without blanks. -/
def toJson (v : Value) : String := String.ofList (Json.compact v)

/-- The value as indented JSON text. -/
def toIndentedJson (v : Value) : String := String.ofList (Json.indented 0 v)

end ComponentMarkdown.Value
