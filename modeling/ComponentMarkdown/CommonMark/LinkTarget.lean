import ComponentMarkdown.CommonMark.Destination
import ComponentMarkdown.CommonMark.Token

namespace ComponentMarkdown.CommonMark.LinkTarget

/-- The text of a title up to its closing mark. Behind a line end it goes on with the first of the
`tokens` of the next line; the passage ends at place `total`. -/
def titleBody? (tokens : List Token) (total : Nat) (opening closing : Char) :
    Nat → List Char → Option (List Char × List Char)
  | 0, _ => none
  | _ + 1, [] => none
  | fuel + 1, c :: rest =>
    let keep := (titleBody? tokens total opening closing fuel rest).map
      fun (text, after) => (c :: text, after)
    if c = closing then some ([], rest)
    else if c = opening then none
    else if isLineEnd c then
      let place := total - (rest.length + 1)
      match Token.beyond (place + 1) tokens with
      | [] => keep
      | token :: _ =>
        if place < token.start then
          (titleBody? tokens total opening closing fuel token.source).map
            fun (text, after) => ('\n' :: text, after)
        else keep
    else
      match Entity.read? (c :: rest) with
      | some (value, after) =>
        (titleBody? tokens total opening closing fuel after).map
          fun (text, after) => (value ++ text, after)
      | none =>
        match c, rest with
        | '\\', d :: after =>
          if Text.isAsciiPunctuation d then
            (titleBody? tokens total opening closing fuel after).map
              fun (text, after) => (d :: text, after)
          else keep
        | _, _ => keep

/-- A title in quotes or parentheses. -/
def title? (tokens : List Token) (total : Nat) (s : List Char) :
    Option (List Char × List Char) :=
  match s with
  | c :: rest =>
    if c = '\x22' ∨ c = '\x27' then titleBody? tokens total c c (s.length) rest
    else if c = '(' then titleBody? tokens total c ')' (s.length) rest
    else none
  | [] => none

/-- Moves over blanks with at most one line end and the margin behind it. -/
def skipSeparator (containers : List Container) (s : List Char) : List Char :=
  let rest := s.dropWhile isLineBlank
  match lineEnd? rest with
  | some (_, after) => (Container.skipMargin containers after).dropWhile isLineBlank
  | none => rest

/-- A target in parentheses at a place, with the place behind it. `tokens` are those from that place
on. -/
def read? (containers : List Container) (tokens : List Token) (place : Nat) (s : List Char) :
    Option (Target × Nat) :=
  match s with
  | '(' :: rest => do
    let total := place + s.length
    let (destination, rest) ← Destination.read? (skipSeparator containers rest)
    let rest := skipSeparator containers rest
    let (title, rest) := match title? tokens total rest with
      | some (title, rest) => (title, skipSeparator containers rest)
      | none => ([], rest)
    match rest with
    | ')' :: rest => some (⟨Entity.unescape destination, title⟩, total - rest.length)
    | _ => none
  | _ => none

end ComponentMarkdown.CommonMark.LinkTarget
