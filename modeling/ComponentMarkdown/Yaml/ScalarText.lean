import ComponentMarkdown.Yaml.Cursor

namespace ComponentMarkdown.Yaml

/-- Blanks and breaks between two pieces of a scalar: the blanks on the line, or the first break and
the ones after it. -/
structure Gap where
  blanks : List Char
  first : Option (List Char)
  more : List Char
deriving DecidableEq, Repr, Inhabited

namespace Gap

def none_ : Gap := ⟨[], none, []⟩

/-- The text that a gap counts as. A break that is no line feed is kept. -/
def text (gap : Gap) : List Char :=
  match gap.first with
  | none => gap.blanks
  | some first =>
    if first = ['\n'] then (if gap.more.isEmpty then [' '] else gap.more) else first ++ gap.more

/-- Moves over blanks and breaks. Behind a break a tab may not stand left of the column
`tabLimit`. -/
def read? (tabLimit : Nat) : Nat → Gap → Cursor → Option (Gap × Cursor)
  | 0, gap, cursor => some (gap, cursor)
  | fuel + 1, gap, cursor =>
    if cursor.next isTabOrSpace then
      match gap.first with
      | none => read? tabLimit fuel { gap with blanks := gap.blanks ++ cursor.rest.take 1 }
          (cursor.skip 1)
      | some _ =>
        if cursor.column < tabLimit ∧ cursor.next (· = '\t') then none
        else read? tabLimit fuel gap (cursor.skip 1)
    else if cursor.atBreak then
      let gap := match gap.first with
        | none => { gap with blanks := [], first := some cursor.breakText }
        | some _ => { gap with more := gap.more ++ cursor.breakText }
      read? tabLimit fuel gap cursor.skipLine
    else some (gap, cursor)

end Gap

/-- The characters that end a plain scalar inside brackets and braces. -/
def flowEnd (c : Char) : Bool :=
  c = ',' || c = '[' || c = ']' || c = '\x7b' || c = '\x7d'

/-- A piece of a plain scalar without blanks. Inside brackets a colon may not stand before one of
their indicators. -/
def plainPiece? (inFlow : Bool) : List Char → Option (List Char)
  | [] => some []
  | c :: rest =>
    if isBlankOrBreak c then some []
    else if inFlow ∧ c = ':' ∧ rest.head?.any (fun d => flowEnd d || d = '?') then none
    else if c = ':' ∧ blankFollows rest then some []
    else if inFlow ∧ flowEnd c then some []
    else (plainPiece? inFlow rest).map (c :: ·)

/-- A plain scalar. Outside brackets its lines have to be indented to the column `indent`. Returns
the text, whether a break was read after it, and the place behind. -/
def plain? (inFlow : Bool) (indent : Nat) :
    Nat → List Char → Gap → Cursor → Option (List Char × Bool × Cursor)
  | 0, text, gap, cursor => some (text, gap.first.isSome, cursor)
  | fuel + 1, text, gap, cursor =>
    if cursor.atDocumentMark ∨ cursor.next (· = '#') then some (text, gap.first.isSome, cursor)
    else do
      let piece ← plainPiece? inFlow cursor.rest
      let text := if piece.isEmpty then text else text ++ gap.text ++ piece
      let gap := if piece.isEmpty then gap else .none_
      let cursor := cursor.skip piece.length
      if cursor.next isBlankOrBreak then
        let (gap, cursor) ← gap.read? indent (fuel + 1) cursor
        if !inFlow ∧ cursor.column < indent then some (text, gap.first.isSome, cursor)
        else plain? inFlow indent fuel text gap cursor
      else some (text, gap.first.isSome, cursor)

/-- The escapes of double-quoted scalars that stand for one character. -/
def unescape? (c : Char) : Option Char :=
  if c = '\t' then some '\t'
  else if c = ' ' ∨ c = '/' then some c
  else (letterEscapes.find? (fun entry => entry.2 = c)).map (fun entry => Char.ofNat entry.1)

/-- The number of digits behind the mark of a numeric escape. -/
def escapeWidth? (c : Char) : Option Nat :=
  if c = 'x' then some 2 else if c = 'u' then some 4 else if c = 'U' then some 8 else none

/-- A numeric escape has to name a character. -/
def numericEscape? (digits : List Char) (width : Nat) : Option Char := do
  let n ← natural? 16 digits
  if digits.length = width ∧ (n < 0xD800 ∨ (0xDFFF < n ∧ n ≤ 0x10FFFF)) then some (Char.ofNat n)
  else none

/-- How a piece of a quoted scalar ends. -/
inductive PieceEnd where
  | text
  | escapedBreak

/-- A piece of a quoted scalar up to a blank, a break, an escaped break or the quote. -/
def quotedPiece? (single : Bool) : Nat → List Char → Cursor → Option (List Char × PieceEnd × Cursor)
  | 0, text, cursor => some (text, .text, cursor)
  | fuel + 1, text, cursor =>
    match cursor.rest with
    | [] => some (text, .text, cursor)
    | c :: rest =>
      if isBlankOrBreak c then some (text, .text, cursor)
      else if single then
        if c = '\x27' then
          if rest.head? = some '\x27' then
            quotedPiece? single fuel (text ++ ['\x27']) (cursor.skip 2)
          else some (text, .text, cursor)
        else quotedPiece? single fuel (text ++ [c]) (cursor.skip 1)
      else if c = '\x22' then some (text, .text, cursor)
      else if c = '\\' then
        match rest with
        | [] => none
        | e :: digits =>
          if isBreak e then some (text, .escapedBreak, (cursor.skip 1).skipLine)
          else
            match unescape? e with
            | some d => quotedPiece? single fuel (text ++ [d]) (cursor.skip 2)
            | none => do
              let width ← escapeWidth? e
              let d ← numericEscape? (digits.take width) width
              quotedPiece? single fuel (text ++ [d]) (cursor.skip (2 + width))
      else quotedPiece? single fuel (text ++ [c]) (cursor.skip 1)

/-- A quoted scalar behind its opening quote. -/
def quoted? (single : Bool) : Nat → List Char → Cursor → Option (List Char × Cursor)
  | 0, _, _ => none
  | fuel + 1, text, cursor =>
    if cursor.atDocumentMark ∨ cursor.atEnd then none
    else do
      let (piece, pieceEnd, cursor) ← quotedPiece? single (fuel + 1) [] cursor
      let text := text ++ piece
      let gap := match pieceEnd with
        | .text => Gap.none_
        | .escapedBreak => { Gap.none_ with first := some [] }
      if cursor.next (· = if single then '\x27' else '\x22') then some (text, cursor.skip 1)
      else
        let (gap, cursor) ← gap.read? 0 (fuel + 1) cursor
        quoted? single fuel (text ++ gap.text) cursor

/-- How the breaks at the end of a block scalar count. -/
inductive Chomping where
  | strip
  | clip
  | keep
deriving DecidableEq, Repr, Inhabited

def chomping? (c : Char) : Option Chomping :=
  if c = '+' then some .keep else if c = '-' then some .strip else none

/-- An indentation digit other than zero. -/
def indentDigit? (c : Char) : Option Nat :=
  if '1' ≤ c ∧ c ≤ '9' then some (c.toNat - 48) else none

/-- The marks behind the indicator of a block scalar, in either order, each at most once. -/
def blockMarks (cursor : Cursor) : Chomping × Option Nat × Cursor :=
  match cursor.peek?.bind chomping? with
  | some chomping =>
    let cursor := cursor.skip 1
    match cursor.peek?.bind indentDigit? with
    | some n => (chomping, some n, cursor.skip 1)
    | none => (chomping, none, cursor)
  | none =>
    match cursor.peek?.bind indentDigit? with
    | some n =>
      let cursor := cursor.skip 1
      match cursor.peek?.bind chomping? with
      | some chomping => (chomping, some n, cursor.skip 1)
      | none => (.clip, some n, cursor)
    | none => (.clip, none, cursor)

/-- Moves over indentation and empty lines. `indent` is none while it is not known; `deepest` is the
deepest column reached. -/
def blockBreaks? (indent : Option Nat) :
    Nat → Nat → List Char → Cursor → Option (Nat × List Char × Cursor)
  | 0, deepest, breaks, cursor => some (deepest, breaks, cursor)
  | fuel + 1, deepest, breaks, cursor =>
    let spaces := (cursor.rest.takeWhile isSpace).length
    let allowed := match indent with
      | none => spaces
      | some n => min spaces (n - cursor.column)
    let cursor := cursor.skip allowed
    let deepest := max deepest cursor.column
    if indent.all (cursor.column < ·) ∧ cursor.next (· = '\t') then none
    else if cursor.atBreak then
      blockBreaks? indent fuel deepest (breaks ++ cursor.breakText) cursor.skipLine
    else some (deepest, breaks, cursor)

/-- The lines of a block scalar. `first` and `more` are the breaks read since the last line and
`startedBlank` says whether that line started with a blank. -/
def blockLines? (literal : Bool) (indent : Nat) :
    Nat → List Char → List Char → List Char → Bool → Cursor →
      Option (List Char × List Char × List Char × Cursor)
  | 0, text, first, more, _, cursor => some (text, first, more, cursor)
  | fuel + 1, text, first, more, startedBlank, cursor =>
    if cursor.column = indent ∧ !cursor.atEnd then
      let startsBlank := cursor.next isTabOrSpace
      let folded := !literal ∧ first = ['\n'] ∧ !startedBlank ∧ !startsBlank
      let joint := if folded then (if more.isEmpty then [' '] else []) else first
      let line := cursor.rest.takeWhile (fun c => !isBreak c)
      let cursor := cursor.skip line.length
      let text := text ++ joint ++ more ++ line
      let first := cursor.breakText
      match blockBreaks? (some indent) (fuel + 1) 0 [] cursor.skipLine with
      | none => none
      | some (_, more, cursor) => blockLines? literal indent fuel text first more startsBlank cursor
    else some (text, first, more, cursor)

/-- A block scalar behind its indicator, inside a block that is indented to `parent`. -/
def block? (literal : Bool) (parent : Int) (fuel : Nat) (cursor : Cursor) :
    Option (List Char × Cursor) := do
  let (chomping, increment, cursor) := blockMarks cursor
  let cursor := cursor.skipWhile isTabOrSpace
  let cursor :=
    if cursor.next (· = '#') then cursor.skipWhile (fun c => !isBreak c) else cursor
  if !cursor.atEnd ∧ !cursor.atBreak then none
  let cursor := cursor.skipLine
  let given := increment.map (fun n => if 0 ≤ parent then parent.toNat + n else n)
  let (deepest, breaks, cursor) ← blockBreaks? given fuel 0 [] cursor
  let indent := given.getD (max deepest (max (parent + 1).toNat 1))
  let (text, first, more, cursor) ← blockLines? literal indent fuel [] [] breaks false cursor
  let tail := match chomping with
    | .strip => []
    | .clip => first
    | .keep => first ++ more
  return (text ++ tail, cursor)

end ComponentMarkdown.Yaml
