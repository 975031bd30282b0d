import ComponentMarkdown.Json.Printer
import ComponentMarkdown.Text.Blank

namespace ComponentMarkdown.AttributeBlock

/-- A string in quotes; only the quote itself is escaped. -/
def quoted (s : String) : List Char :=
  '\x22' :: (Text.replaceChar '\x22' ['\\', '\x22'] s.toList ++ ['\x22'])

/-- Whether a key is internal and never written. -/
def isInternal (key : String) : Bool := Text.startsWith ['_', '_'] key.toList

/-- The spellings of one attribute: none for `null`, one for each word of a class. An id without blanks and the
words of a class have marks of their own, `true` is the bare key, and anything but numbers, booleans and strings
is JSON text behind a bound key. -/
def spellings (key : String) : Value → List (List Char)
  | .null => []
  | .bool true => [key.toList]
  | .bool false => [key.toList ++ "=false".toList]
  | .num n => [key.toList ++ '=' :: Json.numberText n]
  | .str s =>
    if key = "id" ∧ s ≠ "" ∧ !s.toList.any Text.isBlank then ['#' :: s.toList]
    else if key = "class" ∧ !Text.allBlank s.toList then (Text.words s.toList).map ('.' :: ·)
    else [key.toList ++ '=' :: quoted s]
  | other => [':' :: (key.toList ++ '=' :: '\x27' :: (Json.compact other ++ ['\x27']))]

/-- The spellings of all attributes that are written, in order. -/
def parts (attrs : Attrs) (skip : List String) : List (List Char) :=
  attrs.flatMap fun (key, value) =>
    if key ∈ skip ∨ isInternal key then [] else spellings key value

/-- The attribute block of a map without the keys of `skip`; nothing when no attribute remains. -/
def write (attrs : Attrs) (skip : List String) : List Char :=
  let parts := parts attrs skip
  if parts.isEmpty then [] else '\x7b' :: (Text.join [' '] parts ++ ['\x7d'])

end ComponentMarkdown.AttributeBlock
