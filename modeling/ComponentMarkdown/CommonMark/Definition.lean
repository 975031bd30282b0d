import ComponentMarkdown.CommonMark.Destination
import ComponentMarkdown.CommonMark.Label

namespace ComponentMarkdown.CommonMark.Definition

/-- The text behind the margin of the next line, if a paragraph goes on there. -/
abbrev NextLine := List Char → Option (List Char)

/-- Blanks with at most one line end among them: whether there is one, and the text behind. -/
def separator? (next : NextLine) (s : List Char) : Option (Bool × List Char) :=
  match afterLineEnd? (s.dropWhile isLineBlank) with
  | none => some (false, s.dropWhile isLineBlank)
  | some after =>
    (next after).bind fun line =>
      let rest := line.dropWhile isLineBlank
      if atLineEnd rest then none else some (true, rest)

/-- The text of a title up to its closing mark, as it was written, without the margins and the blanks
at the start of its lines. There is no empty line in it. -/
def titleBody? (next : NextLine) (closing : Char) : Nat → List Char → Option (List Char × List Char)
  | 0, _ => none
  | _ + 1, [] => none
  | fuel + 1, c :: rest =>
    if c = '(' ∧ closing = ')' then none
    else if c = closing then some ([], rest)
    else if c = '\\' then
      match rest with
      | d :: after =>
        if isLineEnd d then
          (titleBody? next closing fuel rest).map fun (text, after) => (c :: text, after)
        else (titleBody? next closing fuel after).map fun (text, after) => (c :: d :: text, after)
      | [] => none
    else
      match lineEnd? (c :: rest) with
      | some (_, after) => do
        let line ← next after
        let line := line.dropWhile (fun c => c = ' ' || c = '\t')
        if (afterBlankLine? line).isSome then none
        else
          let (text, after) ← titleBody? next closing fuel line
          some ('\n' :: text, after)
      | none => (titleBody? next closing fuel rest).map fun (text, after) => (c :: text, after)

/-- A title in quotes or parentheses, as it was written. -/
def title? (next : NextLine) (s : List Char) : Option (List Char × List Char) :=
  match s with
  | c :: rest =>
    if c = '\x22' ∨ c = '\x27' then titleBody? next c (rest.length + 1) rest
    else if c = '(' then titleBody? next ')' (rest.length + 1) rest
    else none
  | [] => none

/-- A definition at the start of a text: its label and target, and the text behind its last line. A
title that does not end its line is no title, and belongs to the next paragraph if it starts a
line. -/
def read? (next : NextLine) (s : List Char) : Option (List Char × Target × List Char) := do
  let (label, rest) ← Label.read? next s
  match rest with
  | ':' :: rest =>
    let (_, rest) ← separator? next rest
    let (destination, after) ← Destination.read? rest
    let destination := Entity.unescape destination
    let untitled := (afterBlankLine? after).map
      fun behind => (label, Target.mk destination [], behind)
    if rest.length = after.length then none
    else
      match separator? next after with
      | none => untitled
      | some (broken, start) =>
        if start.length = after.length then none
        else
          let titled := do
            let (title, behind) ← title? next start
            let behind ← afterBlankLine? behind
            some (label, Target.mk destination (Entity.unescape title), behind)
          titled.or (if broken then untitled else none)
  | _ => none

end ComponentMarkdown.CommonMark.Definition
