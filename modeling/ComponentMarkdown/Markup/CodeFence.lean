import ComponentMarkdown.Markup.Node
import ComponentMarkdown.Text.Lines

namespace ComponentMarkdown.CodeFence

def backtick : Char := '\x60'

/-- The longest run of backticks, with `current` the length of the run that is open. -/
def longestRunFrom (current : Nat) : List Char → Nat
  | [] => current
  | c :: rest =>
    if c = backtick then longestRunFrom (current + 1) rest
    else max current (longestRunFrom 0 rest)

/-- The length of a fence around a text: longer than any run of backticks in it, and at least
three. -/
def fenceLength (code : List Char) : Nat := max (longestRunFrom 0 code + 1) 3

/-- The parts of an info string: a language, a file name in brackets, and the rest. -/
structure Info where
  language : Option String
  filename : Option String
  meta? : Option String
deriving DecidableEq, Repr, Inhabited

/-- The info string: the parts that are not empty, with one blank between them. -/
def Info.write (info : Info) : List Char :=
  let nonempty := fun (part : Option String) (wrap : List Char → List Char) =>
    match part with
    | none => []
    | some s => if s = "" then [] else [wrap s.toList]
  Text.join [' ']
    (nonempty info.language id ++ nonempty info.filename (fun s => '[' :: (s ++ [']']))
      ++ nonempty info.meta? id)

/-- A code block. Code that is not empty ends in a line feed of its own. -/
def write (info : Info) (code : List Char) : List Char :=
  let fence := List.replicate (fenceLength code) backtick
  fence ++ info.write ++ '\n' :: ((if code.isEmpty then [] else code ++ ['\n']) ++ fence)

/-- A code span. Code with backticks in it gets two on either side and blanks between. A blank in
front keeps the span apart from a backtick that was written before it. -/
def writeSpan (afterBacktick : Bool) (code : List Char) : List Char :=
  (if afterBacktick then [' '] else [])
    ++ if backtick ∈ code then
        [backtick, backtick, ' '] ++ code ++ [' ', backtick, backtick]
      else backtick :: (code ++ [backtick])

end ComponentMarkdown.CodeFence
