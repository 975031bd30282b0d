import ComponentMarkdown.CommonMark.HtmlTag

namespace ComponentMarkdown.CommonMark

/-- What a list marker says: its character, the number in front, and the column at which the text of
the item has to start. -/
structure ListMarker where
  marker : Char
  number : Nat
  indent : Nat
deriving DecidableEq, Repr, Inhabited

namespace LineStart

/-- The text behind a thematic break: a line of three or more of one mark, with blanks between. -/
def afterRule? (s : List Char) : Option (List Char) :=
  match s with
  | c :: _ =>
    let line := s.takeWhile (fun d => !isLineEnd d)
    if (c = '*' ∨ c = '-' ∨ c = '_') ∧ line.all (fun d => d = c || d = ' ' || d = '\t')
        ∧ 3 ≤ line.count c then
      afterLineEnd? (s.drop line.length)
    else none
  | [] => none

/-- The level of the heading that number signs at the start of a line make it. -/
def headingLevel? (s : List Char) : Option Nat :=
  let level := (s.takeWhile (· = '#')).length
  if 1 ≤ level ∧ level ≤ 6 ∧ (s.drop level).head?.all isSpace then some level else none

/-- The level of the heading that an underline makes of a paragraph, and the text behind the line. -/
def underline? (s : List Char) : Option (Nat × List Char) :=
  match s with
  | c :: _ =>
    if c = '=' ∨ c = '-' then
      (afterBlankLine? (s.dropWhile (· = c))).map fun after => (if c = '=' then 1 else 2, after)
    else none
  | [] => none

/-- The fence that a line starts: its character and length. There is no backtick behind
backticks. -/
def fence? (s : List Char) : Option (Char × Nat) :=
  match s with
  | c :: _ =>
    let length := (s.takeWhile (· = c)).length
    if (c = '\x60' ∨ c = '~') ∧ 3 ≤ length
        ∧ ¬(c = '\x60' ∧ '\x60' ∈ (takeLine (s.drop length)).1) then
      some (c, length)
    else none
  | [] => none

/-- The text behind the line that closes a fence. Its mark has spaces behind it at most. The end of the
document closes every fence. -/
def afterClosingFence? (c : Char) (length : Nat) (s : List Char) : Option (List Char) :=
  let run := (s.takeWhile (· = c)).length
  if s.isEmpty ∨ length ≤ run then afterLineEnd? ((s.drop run).dropWhile (· = ' ')) else none

/-- A list marker at a place, which `indent` columns were skipped to reach, with the place behind it.
A marker is followed by a blank or the end of the line; the text starts behind at most four blanks. -/
def listMarker? (indent : Nat) (place : LinePlace) : Option (ListMarker × LinePlace) :=
  let marked : Option (Char × Nat × Nat) :=
    match place.rest with
    | [] => none
    | c :: _ =>
      if c = '-' ∨ c = '+' ∨ c = '*' then
        if (afterRule? place.rest).isSome then none else some (c, 0, 1)
      else
        let digits := place.rest.takeWhile Char.isDigit
        match place.rest.drop digits.length with
        | d :: _ =>
          if (d = '.' ∨ d = ')') ∧ 1 ≤ digits.length ∧ digits.length ≤ 9 then
            some (d, digits.foldl (fun n c => n * 10 + (c.toNat - 48)) 0, digits.length + 1)
          else none
        | [] => none
  marked.bind fun (marker, number, width) =>
    let (skipped, after) := (place.advance width).skipUpTo 1
    let column := indent + width + 1
    if skipped = 0 ∧ !after.atEnd then none
    else if (afterBlankLine? after.rest).isSome then some (⟨marker, number, column⟩, after)
    else
      let (more, inner) := after.skipUpTo 4
      if more < 4 then some (⟨marker, number, column + more⟩, inner)
      else some (⟨marker, number, column⟩, after)

/-- Whether a list item that starts so ends the paragraph in front of it: always in another container
than the paragraph's; in its own only if it is not empty and starts with the number one. -/
def itemInterrupts (sameContainer : Bool) (place : LinePlace) : Bool :=
  match listMarker? 0 place with
  | none => false
  | some (marker, after) =>
    !sameContainer
      || ((marker.marker ∉ ['.', ')'] || marker.number = 1)
        && (afterBlankLine? after.rest).isNone)

/-- Whether a line that starts so ends the paragraph in front of it. -/
def interruptsParagraph (sameContainer : Bool) (place : LinePlace) : Bool :=
  let s := place.rest
  place.atEnd || (afterRule? s).isSome || (headingLevel? s).isSome || (fence? s).isSome
    || s.head? = some '>' || itemInterrupts sameContainer place || (HtmlTag.endMark? s).isSome
    || HtmlTag.startsBlock s

end LineStart

end ComponentMarkdown.CommonMark
