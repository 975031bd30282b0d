import ComponentMarkdown.CommonMark.Emphasis
import ComponentMarkdown.CommonMark.HtmlTag
import ComponentMarkdown.CommonMark.Label
import ComponentMarkdown.CommonMark.LinkTarget

namespace ComponentMarkdown.CommonMark

/-- An open bracket: its token, whether it may start an image, whether it may still start anything, and
the content read since, last first. -/
structure Bracket where
  opening : Token
  image : Bool
  active : Bool
  content : List Piece
deriving Repr, Inhabited

/-- The passage from a bracket up to a place. An image has another mark in front of the bracket. -/
def Bracket.sourceTo (bracket : Bracket) (place : Nat) : List Char :=
  (bracket.opening.source.take (place - bracket.opening.start)).drop (if bracket.image then 1 else 0)

/-- What has been read: the open brackets, innermost first, and the content outside, last first. -/
structure InlineState where
  brackets : List Bracket
  content : List Piece
deriving Repr, Inhabited

namespace InlineState

/-- Appends a piece to the innermost open bracket. -/
def append (s : InlineState) (piece : Piece) : InlineState :=
  match s.brackets with
  | [] => { s with content := piece :: s.content }
  | top :: rest => { s with brackets := { top with content := piece :: top.content } :: rest }

/-- Appends text. -/
def text (s : InlineState) (content : List Char) : InlineState := s.append (.inline (.text content))

/-- Opens a bracket. -/
def openBracket (s : InlineState) (image : Bool) (token : Token) : InlineState :=
  { s with brackets := ⟨token, image, true, []⟩ :: s.brackets }

/-- The pieces of brackets that were never closed, last first. -/
def unclosed : List Bracket → List Piece
  | [] => []
  | top :: rest => top.content ++ .inline (.text top.opening.content) :: unclosed rest

/-- Takes the innermost open bracket for text. -/
def giveUp (s : InlineState) : InlineState :=
  match s.brackets with
  | [] => s
  | top :: rest =>
    (top.content.reverse).foldl append ({ s with brackets := rest }.text top.opening.content)

/-- Links may not hold links, so the open brackets cannot start one any more. -/
def deactivate (s : InlineState) : InlineState :=
  { s with brackets := s.brackets.map fun b => if b.image then b else { b with active := false } }

/-- Closes the innermost bracket as a link or an image. -/
def close (s : InlineState) (target : Target) : InlineState :=
  match s.brackets with
  | [] => s
  | top :: rest =>
    let content := Emphasis.resolve top.content.reverse
    let s := { s with brackets := rest }
    if top.image then s.append (.inline (.image target.destination target.title content))
    else (s.append (.inline (.link target.destination target.title content))).deactivate

end InlineState

namespace InlineReader

/-- The characters of a code span in one line: a line end counts as a blank, and the margin behind it is
left out. -/
def joinCode (containers : List Container) : Nat → List Char → List Char
  | 0, _ => []
  | _ + 1, [] => []
  | fuel + 1, c :: rest =>
    match lineEnd? (c :: rest) with
    | some (_, after) => ' ' :: joinCode containers fuel (Container.skipMargin containers after)
    | none => c :: joinCode containers fuel rest

/-- A code span's text: one blank is dropped on either side if there are both and other characters
too. -/
def codeText (containers : List Container) (s : List Char) : List Char :=
  let s := joinCode containers (s.length + 1) s
  if s.head? = some ' ' ∧ s.getLast? = some ' ' ∧ !s.all (· = ' ') then (s.drop 1).dropLast else s

/-- The next run of exactly `length` backticks, and the tokens behind it. -/
def codeEnd? (length : Nat) : List Token → Option (Token × List Token)
  | [] => none
  | token :: rest =>
    match token.kind with
    | .backticks other _ => if other = length then some (token, rest) else codeEnd? length rest
    | _ => codeEnd? length rest

/-- Takes a run of backticks. Where no code span starts, it is text. The first backtick behind a
backslash always is. -/
def takeBackticks (containers : List Container) (s : InlineState) (token : Token) (length : Nat)
    (escaped : Bool) (rest : List Token) : InlineState × List Token :=
  let wanted := if escaped then length - 1 else length
  match if wanted = 0 then none else codeEnd? wanted rest with
  | none => (s.text token.content, rest)
  | some (closing, after) =>
    let code := codeText containers (token.behind.take (closing.start - token.stop))
    let s := if escaped then s.text ['\x60'] else s
    (s.append (.inline (.code code)), after)

/-- The characters of a scheme after the first. -/
def isSchemeChar (c : Char) : Bool := c.isAlphanum || c = '+' || c = '.' || c = '-'

/-- An address behind `<`: a scheme of two to thirty-two characters, a colon, and no blanks. -/
def address? (s : List Char) : Option (List Char × List Char) :=
  match s with
  | c :: rest =>
    if !c.isAlpha then none
    else
      let scheme := rest.takeWhile isSchemeChar
      match rest.drop scheme.length with
      | ':' :: path =>
        let body := path.takeWhile (fun c => 32 < c.toNat && c ≠ '<' && c ≠ '>')
        match path.drop body.length with
        | '>' :: after =>
          if 1 ≤ scheme.length ∧ scheme.length ≤ 31 then
            some (c :: scheme ++ ':' :: body, after)
          else none
        | _ => none
      | _ => none
  | [] => none

/-- The characters in front of the at sign of a mail address. -/
def isMailChar (c : Char) : Bool :=
  c.isAlphanum || c ∈ ['.', '!', '#', '$', '%', '&', '\x27', '*', '+', '/', '=', '?', '^', '_',
    '\x60', '\x7b', '|', '\x7d', '~', '-']

/-- A label of a host name: letters, digits and inner dashes, at most sixty-three. -/
def isHostLabel (s : List Char) : Bool :=
  !s.isEmpty && s.length ≤ 63 && s.all (fun c => c.isAlphanum || c = '-')
    && s.head? ≠ some '-' && s.getLast? ≠ some '-'

/-- A mail address behind `<`. -/
def mail? (s : List Char) : Option (List Char × List Char) :=
  let name := s.takeWhile isMailChar
  match s.drop name.length with
  | '@' :: rest =>
    let host := rest.takeWhile (fun c => c.isAlphanum || c = '-' || c = '.')
    match rest.drop host.length with
    | '>' :: after =>
      if !name.isEmpty ∧ (Text.splitOn '.' host).all isHostLabel then
        some (name ++ '@' :: host, after)
      else none
    | _ => none
  | _ => none

/-- An automatic link or a piece of raw HTML at the start of a text. -/
def angle? (containers : List Container) (s : List Char) : Option (Inline × List Char) :=
  match (address? s.tail).or (mail? s.tail) with
  | some (target, after) => some (.link target [] [.text target], after)
  | none =>
    (HtmlTag.inline? (fun s => some (Container.skipMargin containers s)) s).map
      fun (html, after) => (.html html, after)

/-- Takes an angle bracket. -/
def takeAngle (containers : List Container) (s : InlineState) (token : Token)
    (rest : List Token) : InlineState × List Token :=
  match if rest.isEmpty then none else angle? containers token.source with
  | none => (s.text token.content, rest)
  | some (inline, after) =>
    let place := token.start + (token.source.length - after.length)
    (s.append (.inline inline), Token.startingAt place rest)

/-- What a bracket that `token` closes leads to, and the tokens behind the link: the target in
parentheses, the one of a label that follows, or the one of the label that the brackets hold
themselves. A label that follows has to be defined. -/
def target? (definitions : Definitions) (containers : List Container) (bracket : Bracket)
    (token : Token) (rest : List Token) : Option (Target × List Token) :=
  match LinkTarget.read? containers rest token.stop token.behind with
  | some (target, place) => some (target, Token.startingAt place rest)
  | none =>
    let label? := Label.read? (fun s => some (Container.skipMargin containers s))
    let own : Option Target :=
      match label? (bracket.sourceTo token.stop) with
      | some (label, []) => Label.target? definitions label
      | _ => none
    match rest with
    | [] => own.map fun target => (target, [])
    | next :: behind =>
      if Text.startsWith ['[', ']'] next.source then
        own.map fun target => (target, behind.drop 1)
      else
        match label? next.source with
        | some (label, after) =>
          let place := next.start + (next.source.length - after.length)
          match Token.beyond (place - 1) rest with
          | [] => none
          | _ :: behind => (Label.target? definitions label).map fun target => (target, behind)
        | none => own.map fun target => (target, rest)

/-- Takes a closing bracket. -/
def takeCloseBracket (definitions : Definitions) (containers : List Container) (s : InlineState)
    (token : Token) (rest : List Token) : InlineState × List Token :=
  match s.brackets with
  | [] => (s.text token.content, rest)
  | top :: _ =>
    match if top.active then target? definitions containers top token rest else none with
    | some (target, rest) => (s.close target, rest)
    | none => (s.giveUp.text token.content, rest)

/-- Takes the next token. Returns what is left of the others. -/
def step (definitions : Definitions) (containers : List Container) (s : InlineState)
    (token : Token) (rest : List Token) : InlineState × List Token :=
  match token.kind with
  | .text => (s.text token.content, rest)
  | .reference value => (s.text value, rest)
  | .run run => (s.append (.run run (token.content.drop run.length)), rest)
  | .backticks length escaped => takeBackticks containers s token length escaped rest
  | .angle => takeAngle containers s token rest
  | .openBracket image => (s.openBracket image token, rest)
  | .closeBracket => takeCloseBracket definitions containers s token rest
  | .softBreak => (s.append (.inline .softBreak), rest)
  | .hardBreak false => (s.append (.inline .hardBreak), rest)
  | .hardBreak true => (s.append .slashBreak, rest)

/-- Takes tokens until none is left. -/
def run (definitions : Definitions) (containers : List Container) :
    Nat → InlineState → List Token → InlineState
  | 0, s, _ => s
  | _ + 1, s, [] => s
  | fuel + 1, s, token :: rest =>
    let (s, rest) := step definitions containers s token rest
    run definitions containers fuel s rest

/-- The inline content of a passage. Code spans, automatic links and raw HTML reach over the tokens inside them.
Emphasis is matched inside every link on its own, and in what stands outside at the end. -/
def read (definitions : Definitions) (passage : Passage) : List Inline :=
  let tokens := passage.tokens
  let s := run definitions passage.containers (tokens.length + 1) ⟨[], []⟩ tokens
  Emphasis.resolve (InlineState.unclosed s.brackets ++ s.content).reverse

end InlineReader

end ComponentMarkdown.CommonMark
