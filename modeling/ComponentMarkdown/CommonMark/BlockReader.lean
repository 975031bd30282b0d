import ComponentMarkdown.CommonMark.Definition
import ComponentMarkdown.CommonMark.LineStart

namespace ComponentMarkdown.CommonMark

/-- A container with the blocks read for it, last first. -/
structure Frame where
  container : Container
  blocks : List Block
deriving Repr, Inhabited

namespace Frame

/-- The block of a container that is complete. -/
def toBlock (frame : Frame) : Block :=
  match frame.container with
  | .quote => .quote frame.blocks.reverse
  | .list marker number tight =>
    .list (if marker = '.' ∨ marker = ')' then some number else none) tight frame.blocks.reverse
  | .item _ => .item frame.blocks.reverse

/-- Whether a frame holds a list without empty lines. -/
def isTight (frame : Frame) : Bool :=
  match frame.container with
  | .list _ _ tight => tight
  | _ => false

/-- Makes a list loose. -/
def loosen (frame : Frame) : Frame :=
  match frame.container with
  | .list marker number _ => { frame with container := .list marker number false }
  | _ => frame

end Frame

/-- What has been read: the open containers, innermost first, the blocks outside, last first, whether
the last line was empty, whether the innermost item has nothing but its marker so far, and the labels
that were defined. -/
structure BlockState where
  frames : List Frame
  blocks : List Block
  afterBlank : Bool
  bareItem : Bool
  definitions : Definitions
deriving Repr, Inhabited

namespace BlockState

def append (s : BlockState) (block : Block) : BlockState :=
  match s.frames with
  | [] => { s with blocks := block :: s.blocks }
  | top :: rest => { s with frames := { top with blocks := block :: top.blocks } :: rest }

/-- Closes the innermost container. -/
def pop (s : BlockState) : BlockState :=
  match s.frames with
  | [] => s
  | top :: rest =>
    ({ s with frames := rest, bareItem := s.bareItem && !top.isTight }).append top.toBlock

/-- Closes containers until `n` are open. -/
def popTo (s : BlockState) (n : Nat) : BlockState :=
  (List.range (s.frames.length - n)).foldl (fun s _ => s.pop) s

def push (s : BlockState) (container : Container) : BlockState :=
  { s with frames := ⟨container, []⟩ :: s.frames }

def inList (s : BlockState) : Bool :=
  match s.frames with
  | ⟨.list _ _ _, _⟩ :: _ => true
  | _ => false

def inItem (s : BlockState) : Bool :=
  match s.frames with
  | ⟨.item _, _⟩ :: _ => true
  | _ => false

/-- Closes an item that holds nothing but its marker and an empty line. -/
def finishBareItem (s : BlockState) : BlockState :=
  let s := if s.bareItem ∧ s.afterBlank ∧ s.inItem then s.pop else s
  { s with bareItem := false }

/-- Prepares for a block that belongs to no list item in the innermost list: the list ends. A block
behind an empty line makes the list loose whose item it belongs to. -/
def finishList (s : BlockState) : BlockState :=
  let s := s.finishBareItem
  let s := if s.inList then s.pop else s
  if s.afterBlank then
    let frames := match s.frames with
      | top :: parent :: rest => top :: parent.loosen :: rest
      | frames => frames
    { s with frames := frames, afterBlank := false }
  else s

/-- Opens a list item. The list of the item in front goes on if it has the same marker. -/
def openItem (s : BlockState) (marker : ListMarker) : BlockState :=
  let s := s.finishBareItem
  let goesOn : Bool := match s.frames with
    | ⟨.list other _ _, _⟩ :: _ => other == marker.marker
    | _ => false
  let s :=
    if goesOn then
      if s.afterBlank then
        { s with
          frames := match s.frames with
            | top :: rest => top.loosen :: rest
            | [] => [] }
      else s
    else (s.finishList).push (.list marker.marker marker.number true)
  ({ s with afterBlank := false }).push (.item marker.indent)

/-- The text of an item whose first line is empty may start at any column. -/
def freeItem (s : BlockState) : BlockState :=
  match s.frames with
  | ⟨.item _, blocks⟩ :: rest => { s with frames := ⟨.item 0, blocks⟩ :: rest }
  | _ => s

/-- The open containers, outermost first. -/
def containers (s : BlockState) : List Container := (s.frames.map Frame.container).reverse

/-- Whether a line goes on in all open containers, and its place there. -/
def enter (s : BlockState) (text : List Char) : Bool × LinePlace :=
  let (n, place) := Container.goOn s.containers (.start text)
  (n = s.frames.length, place)

/-- The text behind the margin of a line that a paragraph or a definition goes on in. -/
def continuation? (s : BlockState) (text : List Char) : Option (List Char) :=
  let (same, place) := s.enter text
  let (skipped, inner) := place.skipUpTo 4
  if skipped < 4 ∧ (LineStart.interruptsParagraph same inner
      ∨ same ∧ (LineStart.underline? inner.rest).isSome) then none
  else some inner.rest

/-- The lines that a paragraph goes on with, the level and the characters of the underline that makes
it a heading, and the text behind it. -/
def paragraphLines (s : BlockState) :
    Nat → List Char → List TextLine × Option (Nat × List Char) × List Char
  | 0, text => ([], none, text)
  | fuel + 1, text =>
    let (same, place) := s.enter text
    let (skipped, inner) := place.skipUpTo 4
    match if same ∧ skipped < 4 then LineStart.underline? inner.rest else none with
    | some (level, after) => ([], some (level, text.take (text.length - after.length)), after)
    | none =>
      let content := inner.skipAll
      if (skipped < 4 ∧ LineStart.interruptsParagraph same inner) ∨ content.atEnd then
        ([], none, text)
      else
        let (line, after) := takeTextLine content.rest
        let (lines, underline, rest) := paragraphLines s fuel after
        (⟨text.take content.passed, line⟩ :: lines, underline, rest)

/-- Reads a paragraph, or a heading with an underline, behind the margin of its first line. -/
def paragraph (s : BlockState) (margin text : List Char) : BlockState × List Char :=
  let s := s.finishList
  let (line, after) := takeTextLine text
  let (lines, underline, rest) := s.paragraphLines (after.length + 1) after
  let lines : List TextLine := ⟨margin, line⟩ :: lines
  match underline with
  | none => (s.append (.paragraph ⟨s.containers, lines, [], none⟩), rest)
  | some (level, tail) => (s.append (.heading level ⟨s.containers, lines, tail, none⟩), rest)

/-- Reads definitions and the paragraph behind them. -/
def definitionsOrParagraph :
    Nat → BlockState → List Char → List Char → BlockState × List Char
  | 0, s, margin, text => s.paragraph margin text
  | fuel + 1, s, margin, text =>
    match Definition.read? s.continuation? text with
    | none => s.paragraph margin text
    | some (label, target, rest) =>
      let s := { s with definitions := Label.define s.definitions label target }
      let (same, place) := s.enter rest
      let (skipped, inner) := place.skipUpTo 4
      let content := inner.skipAll
      if (skipped < 4 ∧ LineStart.interruptsParagraph same inner) ∨ content.atEnd then
        (s.finishList, rest)
      else definitionsOrParagraph fuel s (rest.take content.passed) content.rest

/-- A line of code or raw HTML. A carriage return is dropped in front of its last character. -/
def literalLine (line : List Char) : List Char :=
  match line.reverse with
  | last :: '\r' :: front => (last :: front).reverse
  | _ => line

/-- The lines of an indented code block from a place on, each with whether it is empty, and the text
behind them. -/
def indentedLines (s : BlockState) :
    Nat → LinePlace → List (List Char × Bool) × List Char
  | 0, place => ([], place.rest)
  | fuel + 1, place =>
    let (line, after) := takeLine place.rest
    let first := (place.padding ++ literalLine line, (afterBlankLine? place.rest).isSome)
    let (same, next) := s.enter after
    let (skipped, inner) := next.skipUpTo 4
    if same ∧ (skipped = 4 ∨ inner.atEnd) ∧ !inner.rest.isEmpty then
      let (lines, left) := indentedLines s fuel inner
      (first :: lines, left)
    else ([first], after)

/-- Reads an indented code block. Empty lines at its end are not part of it. -/
def indentedCode (s : BlockState) (place : LinePlace) : BlockState × List Char :=
  let s := s.finishList
  let (lines, left) := s.indentedLines (place.rest.length + 1) place
  let kept := (lines.reverse.dropWhile Prod.snd).reverse
  ({ s.append (.code [] (kept.flatMap Prod.fst)) with afterBlank := kept.length < lines.length },
    left)

/-- The text of a fenced code block, and the text behind it. -/
def fencedLines (s : BlockState) (indent : Nat) (marker : Char) (length : Nat) :
    Nat → List Char → List Char × List Char
  | 0, text => ([], text)
  | fuel + 1, text =>
    let (same, place) := s.enter text
    if !same then ([], text)
    else
      let inner := (place.skipUpTo indent).2
      let (skipped, closing) := inner.skipUpTo (4 - indent)
      match if skipped < 4 - indent then LineStart.afterClosingFence? marker length closing.rest
        else none with
      | some after => ([], after)
      | none =>
        let (line, after) := takeLine inner.rest
        let (content, left) := fencedLines s indent marker length fuel after
        (inner.padding ++ literalLine line ++ content, left)

/-- Reads a fenced code block. -/
def fencedCode (s : BlockState) (indent : Nat) (marker : Char) (length : Nat) (text : List Char) :
    BlockState × List Char :=
  let s := s.finishList
  let (line, after) := takeLine (text.drop length)
  let info := Text.dropEndWhile isSpace (line.dropWhile isLineBlank)
  let (content, left) := s.fencedLines indent marker length (after.length + 1) after
  (s.append (.code (Entity.unescape info) content), left)

/-- The text of a block of raw HTML with blanks in front of its first line, and the text behind it. It
ends with the line that holds the end mark, or in front of an empty line if there is no such mark. -/
def htmlLines (s : BlockState) (mark : Option (List Char)) :
    Nat → Nat → List Char → List Char × List Char
  | 0, _, text => ([], text)
  | fuel + 1, pad, text =>
    let (line, after) := takeLine text
    let content := List.replicate pad ' ' ++ literalLine line
    let (same, place) := s.enter after
    let ends : Bool := match mark with
      | some mark => (HtmlTag.afterMark? mark line).isSome
      | none => (afterBlankLine? place.rest).isSome
    if !same || ends || place.rest.isEmpty then (content, after)
    else
      let (more, left) := htmlLines s mark fuel place.pad place.rest
      (content ++ more, left)

/-- Reads a block of raw HTML. -/
def rawHtml (s : BlockState) (mark : Option (List Char)) (pad : Nat) (text : List Char) :
    BlockState × List Char :=
  let s := s.finishList
  let (content, left) := s.htmlLines mark (text.length + 1) pad text
  (s.append (.html content), left)

/-- The length of the text of a heading, without the number signs that close it. -/
def headingLimit (line : List Char) : Nat :=
  let kept := Text.dropEndWhile (fun c => isLineEnd c || c = ' ') line
  let unmarked := Text.dropEndWhile (· = '#') kept
  let text := Text.dropEndWhile (· = ' ') unmarked
  if text.length < unmarked.length ∨ unmarked.isEmpty then text.length else kept.length

/-- Reads a heading behind its number signs. -/
def heading (s : BlockState) (level : Nat) (text : List Char) : BlockState × List Char :=
  let s := s.finishList
  let (line, rest) := takeTextLine (text.dropWhile isLineBlank)
  (s.append (.heading level ⟨s.containers, [⟨[], line⟩], [], some (headingLimit line)⟩), rest)

/-- Opens the containers that start at a place. Returns the place behind them, or the text behind the
line if it ends behind the marker of an item. -/
def openContainers : Nat → BlockState → LinePlace → BlockState × (List Char ⊕ LinePlace)
  | 0, s, place => (s, .inr place)
  | fuel + 1, s, place =>
    let (indent, inner) := place.skipUpTo 4
    if 4 ≤ indent then (s, .inr place)
    else
      match LineStart.listMarker? indent inner with
      | some (marker, behind) =>
        let s := s.openItem marker
        match afterBlankLine? behind.rest with
        | some rest => ({ s with bareItem := true }, .inl rest)
        | none => openContainers fuel s behind
      | none =>
        match inner.quoteMark? with
        | some behind => openContainers fuel (s.finishList.push .quote) behind
        | none => (s, .inr place)

/-- Takes an empty line. In a quotation it only ends what it ends. -/
def blankLine (s : BlockState) : BlockState :=
  match s.frames with
  | ⟨.quote, _⟩ :: _ => s
  | _ => if s.inItem ∧ s.bareItem then { s.freeItem with afterBlank := true }
    else { s with afterBlank := true }

/-- Takes the block that starts at a place, which is no empty line, with all its lines. -/
def leaf (s : BlockState) (place : LinePlace) : BlockState × List Char :=
  let (indent, inner) := place.skipUpTo 4
  let text := inner.rest
  let pad := max place.pad indent
  if indent = 4 then s.indentedCode inner
  else
    match HtmlTag.endMark? text with
    | some mark => s.rawHtml (some mark) pad text
    | none =>
      if HtmlTag.startsBlock text ∨ HtmlTag.isTagAlone text then s.rawHtml none pad text
      else
        match LineStart.afterRule? text with
        | some rest => (s.finishList.append .rule, rest)
        | none =>
          match LineStart.headingLevel? text, LineStart.fence? text with
          | some level, _ => s.heading level (text.drop level)
          | none, some (marker, length) => s.fencedCode indent marker length text
          | none, none => definitionsOrParagraph text.length s [] text

/-- Takes the block that starts on a line, with all its lines: first the containers that the line goes on in, then
those that it opens, then the block itself. -/
def step (s : BlockState) (text : List Char) : BlockState × List Char :=
  let (n, place) := Container.goOn s.containers (.start text)
  match openContainers (text.length + 1) (s.popTo n) place with
  | (s, .inl rest) => (s, rest)
  | (s, .inr place) =>
    match afterBlankLine? place.rest with
    | some rest => (s.blankLine, rest)
    | none => s.leaf place

/-- Takes blocks until no text is left. -/
def run : Nat → BlockState → List Char → BlockState
  | 0, s, _ => s
  | fuel + 1, s, text =>
    if text.isEmpty then s
    else
      let (s, rest) := s.step text
      run fuel s rest

end BlockState

/-- A document: its blocks and the labels it defines. -/
structure Document where
  blocks : List Block
  definitions : Definitions
deriving Repr, Inhabited

namespace Document

/-- Reads the blocks of a text. -/
def read (text : List Char) : Document :=
  let s := (BlockState.run (text.length + 1) ⟨[], [], false, false, []⟩ text).popTo 0
  ⟨s.blocks.reverse, s.definitions⟩

end Document

end ComponentMarkdown.CommonMark
