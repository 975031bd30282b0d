import ComponentMarkdown.CommonMark.Line
import ComponentMarkdown.Text.Blank
import ComponentMarkdown.Text.CaseFold

namespace ComponentMarkdown.CommonMark.Label

/-- The weight that a label has to stay below. Blanks weigh one each, with the margins of lines among
them, and characters beyond ASCII as much as their encoding is long. A backslash weighs one, and so does
the first part of the character that it escapes. -/
def maxWeight : Nat := 1000

/-- The weight of a character that is neither blank nor escaped. -/
def weight (c : Char) : Nat := if c.toNat < 128 then 0 else c.utf8Size

/-- The text behind blanks with at most one line end among them. Behind a line end `next` moves over
the margin of the next line, if the label may go on there. -/
def afterBlanks? (next : List Char → Option (List Char)) (broken : Bool) :
    Nat → List Char → Option (List Char)
  | 0, _ => none
  | _ + 1, [] => some []
  | fuel + 1, c :: rest =>
    if isLineBlank c then afterBlanks? next broken fuel rest
    else
      match lineEnd? (c :: rest) with
      | some (_, after) =>
        if broken then none
        else (next after).bind fun line => afterBlanks? next true fuel line
      | none => some (c :: rest)

/-- The text of a label up to its closing bracket, every run of blanks as one. There are no brackets in
it except behind a backslash. `left` is the weight that it may still have. -/
def body? (next : List Char → Option (List Char)) :
    Nat → Nat → List Char → Option (List Char × List Char)
  | 0, _, _ => none
  | _ + 1, _, [] => none
  | fuel + 1, left, c :: rest =>
    if left = 0 ∨ c = '[' then none
    else if c = ']' then some ([], rest)
    else if c = '\\' then
      match rest with
      | [] => none
      | d :: rest =>
        (body? next fuel (left - 2 - (weight d - 1)) rest).map
          fun (text, after) => (c :: d :: text, after)
    else if isSpace c then do
      let behind ← afterBlanks? next false (fuel + 1) (c :: rest)
      let (text, after) ← body? next fuel (left - (rest.length + 1 - behind.length)) behind
      some (' ' :: text, after)
    else (body? next fuel (left - weight c) rest).map fun (text, after) => (c :: text, after)

/-- A label in brackets, which has to hold something other than blanks. Two labels are the same when they differ
in case, in blanks at the ends and in the length of blanks in between alone. -/
def read? (next : List Char → Option (List Char)) (s : List Char) :
    Option (List Char × List Char) :=
  match s with
  | '[' :: rest =>
    match body? next (rest.length + 1) maxWeight rest with
    | some (text, after) =>
      if text.all isSpace then none
      else some (Text.dropEndWhile isSpace (text.dropWhile isSpace), after)
    | none => none
  | _ => none

/-- The target of the definition with a label. -/
def target? (definitions : Definitions) (label : List Char) : Option Target :=
  definitions.lookup (Text.foldCase label)

/-- Adds a definition. The first one of a label counts. -/
def define (definitions : Definitions) (label : List Char) (target : Target) : Definitions :=
  if (target? definitions label).isSome then definitions
  else definitions ++ [(Text.foldCase label, target)]

end ComponentMarkdown.CommonMark.Label
