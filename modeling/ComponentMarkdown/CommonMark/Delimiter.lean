import ComponentMarkdown.Text.Blank
import ComponentMarkdown.Text.Punctuation

namespace ComponentMarkdown.CommonMark

/-- A run of delimiters: its character and length, and what it may do. -/
structure Run where
  marker : Char
  length : Nat
  opens : Bool
  closes : Bool
deriving DecidableEq, Repr, Inhabited

namespace Run

/-- Whether a run may open emphasis between two characters; there is none at an end of the text. -/
def canOpen (marker : Char) (length : Nat) (before after : Option Char) : Bool :=
  match after with
  | none => false
  | some next =>
    if Text.isBlank next then false
    else
      match before with
      | none => true
      | some previous =>
        (marker = '*' && !Text.isPunctuation next) || (marker = '~' && 1 < length)
          || Text.isBlank previous || Text.isPunctuation previous

/-- Whether a run may close emphasis between two characters. -/
def canClose (marker : Char) (length : Nat) (before after : Option Char) : Bool :=
  match before with
  | none => false
  | some previous =>
    if Text.isBlank previous then false
    else
      match after with
      | none => true
      | some next =>
        ((marker = '*' || (marker = '~' && 1 < length)) && !Text.isPunctuation previous)
          || (marker = '~' && previous = '~') || Text.isBlank next || Text.isPunctuation next

/-- The run at a place, unless it can do nothing there. -/
def ofContext? (marker : Char) (length : Nat) (before after : Option Char) : Option Run :=
  let opens := canOpen marker length before after
  let closes := canClose marker length before after
  if (opens || closes) && (marker ≠ '~' || length ≤ 2) then some ⟨marker, length, opens, closes⟩
  else none

end Run

end ComponentMarkdown.CommonMark
