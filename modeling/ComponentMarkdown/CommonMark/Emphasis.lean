import ComponentMarkdown.CommonMark.Delimiter
import ComponentMarkdown.CommonMark.Tree

namespace ComponentMarkdown.CommonMark

/-- Inline content in which emphasis has not been matched. A run may have blanks behind it that belong
to its text, and a break made by a backslash is told apart. -/
inductive Piece where
  | inline (content : Inline)
  | run (run : Run) (blanks : List Char)
  | slashBreak
deriving Repr, Inhabited

/-- Whether a piece is a run of delimiters. -/
def Piece.isRun : Piece → Bool
  | .run _ _ => true
  | _ => false

namespace Run

/-- The delimiters of a run that are left, as text. -/
def text (run : Run) (left : Nat) : Inline := .text (List.replicate left run.marker)

end Run

namespace Emphasis

/-- A run that may still be closed: what is left of it, and the content behind it, last first. -/
structure Opened where
  run : Run
  left : Nat
  content : List Inline
deriving Repr, Inhabited

/-- What has been matched: the open runs, innermost first, the content in front of them, last first,
and the number of open runs that no run of tildes reaches any more. -/
structure State where
  opened : List Opened
  content : List Inline
  tildeBound : Nat
deriving Repr, Inhabited

/-- Appends content behind the innermost open run. -/
def State.append (s : State) (content : Inline) : State :=
  match s.opened with
  | [] => { s with content := content :: s.content }
  | top :: rest => { s with opened := { top with content := content :: top.content } :: rest }

/-- Whether a closing run matches an open one. Two runs of which one could do both do not match when
their lengths add up to a multiple of three, unless both are. -/
def isMatch (closing : Run) (open_ : Run) : Bool :=
  open_.marker = closing.marker
    && (closing.marker ≠ '~' || open_.length = closing.length)
    && ((!(closing.opens && closing.closes) && !(open_.opens && open_.closes))
      || (closing.length + open_.length) % 3 ≠ 0 || closing.length % 3 = 0)

/-- The content behind an opened run and everything opened in it, last first, as if nothing had
closed it: the runs inside count as text. -/
def flatten : List Opened → List Inline
  | [] => []
  | top :: rest => top.content ++ top.run.text top.left :: flatten rest

/-- Wraps content in emphasis for a number of matched delimiters, the innermost first. -/
def wrap (marker : Char) : Nat → List Inline → List Inline
  | 0, content => content
  | 1, content => [if marker = '~' then .strikethrough content else .emphasis content]
  | n + 2, content =>
    wrap marker n [if marker = '~' then .strikethrough content else .strong content]

/-- The open runs down to the innermost one that matches, which comes last. Of a number of runs
`bound` are out of reach. -/
def toMatch? (closing : Run) (bound : Nat) :
    List Opened → Option (List Opened × Opened × List Opened)
  | [] => none
  | top :: rest =>
    if rest.length < bound then none
    else if isMatch closing top.run then some ([], top, rest)
    else (toMatch? closing bound rest).map fun (above, found, below) => (top :: above, found, below)

/-- Closes as many open runs as the delimiters of a closing run allow. Returns the number of
delimiters left. -/
def closeRuns (run : Run) : Nat → Nat → State → Nat × State
  | 0, left, s => (left, s)
  | fuel + 1, left, s =>
    let bound := if run.marker = '~' then s.tildeBound else 0
    if left = 0 then (0, s)
    else
      match toMatch? run bound s.opened with
      | none => (left, if run.marker = '~' then { s with tildeBound := s.opened.length } else s)
      | some (above, found, below) =>
        let count := min left found.left
        let content := (flatten above ++ found.content).reverse
        let emphasis := wrap run.marker count content
        let s : State :=
          { s with opened := below, tildeBound := min s.tildeBound below.length }
        let s :=
          if count < found.left then
            { s with opened := ⟨found.run, found.left - count, emphasis.reverse⟩ :: below }
          else emphasis.foldl State.append s
        closeRuns run fuel (left - count) s

/-- Takes the next piece. -/
def step (s : State) : Piece → State
  | .inline content => s.append content
  | .slashBreak => s.append .hardBreak
  | .run run blanks =>
    let (left, s) := if run.closes then closeRuns run (s.opened.length + 1) run.length s
      else (run.length, s)
    if left = 0 then s
    else if run.opens then { s with opened := ⟨run, left, []⟩ :: s.opened }
    else (s.append (run.text left)).append (.text blanks)

/-- The backslash of a break at the end of pieces is text if delimiters are among them. -/
def settleEnd (pieces : List Piece) : List Piece :=
  match pieces.getLast? with
  | some .slashBreak =>
    if pieces.any Piece.isRun then pieces.dropLast ++ [.inline (.text ['\\'])] else pieces
  | _ => pieces

/-- Matches the delimiters of pieces. What is still open at the end is text. Runs are matched from left to right:
a closing run takes the nearest opening run of its character, two delimiters at a time for strong emphasis and one
for plain, and everything that was opened in between counts as text. Tildes match runs of their own length. -/
def resolve (pieces : List Piece) : List Inline :=
  let s := (settleEnd pieces).foldl step ⟨[], [], 0⟩
  (flatten s.opened ++ s.content).reverse

end Emphasis

end ComponentMarkdown.CommonMark
