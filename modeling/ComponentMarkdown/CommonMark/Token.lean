import ComponentMarkdown.CommonMark.Delimiter
import ComponentMarkdown.CommonMark.Entity
import ComponentMarkdown.CommonMark.Line

namespace ComponentMarkdown.CommonMark

/-- What a token is. Backticks may stand behind a backslash, which takes the first of them out of a run
that opens. A hard break is made by blanks or by a backslash. -/
inductive TokenKind where
  | text
  | reference (value : List Char)
  | run (run : Run)
  | backticks (length : Nat) (escaped : Bool)
  | angle
  | openBracket (image : Bool)
  | closeBracket
  | softBreak
  | hardBreak (escaped : Bool)
deriving DecidableEq, Repr, Inhabited

/-- A token: the places where it starts and stops, and the passage from its start on. Links and raw HTML reach
over whole tokens up to a place. -/
structure Token where
  kind : TokenKind
  start : Nat
  stop : Nat
  source : List Char
deriving Repr, Inhabited

namespace Token

/-- The characters of a token. -/
def content (token : Token) : List Char := token.source.take (token.stop - token.start)

/-- The passage behind a token. -/
def behind (token : Token) : List Char := token.source.drop (token.stop - token.start)

/-- The tokens that reach beyond a place. -/
def beyond (place : Nat) (tokens : List Token) : List Token :=
  tokens.dropWhile (fun token => token.stop ≤ place)

/-- The tokens from a place on. A token that the place is inside of is cut there. -/
def startingAt (place : Nat) (tokens : List Token) : List Token :=
  match beyond place tokens with
  | [] => []
  | token :: rest =>
    { token with
      start := max token.start place
      source := token.source.drop (place - token.start) } :: rest

/-- What stands at a place of a line: so many characters of text, an escape that makes the next
character text, or a token that starts behind so many characters and has so many. -/
inductive Step where
  | plain (length : Nat)
  | escape
  | token (kind : TokenKind) (offset length : Nat)

/-- What stands at the start of a text, with the character in front of it in the line. -/
def Step.of (before : Option Char) (s : List Char) : Step :=
  match s with
  | '\\' :: c :: rest =>
    if c = '\x60' then
      let length := ((c :: rest).takeWhile (· = '\x60')).length
      .token (.backticks length true) 1 length
    else if Text.isAsciiPunctuation c then .escape
    else .plain 1
  | '!' :: '[' :: _ => .token (.openBracket true) 0 2
  | '[' :: _ => .token (.openBracket false) 0 1
  | ']' :: _ => .token .closeBracket 0 1
  | '<' :: rest => if rest.head? = some '\\' then .plain 1 else .token .angle 0 1
  | '&' :: _ =>
    match Entity.read? s with
    | some (value, after) => .token (.reference value) 0 (s.length - after.length)
    | none => .plain 1
  | c :: _ =>
    let length := (s.takeWhile (· = c)).length
    if c = '\x60' then .token (.backticks length false) 0 length
    else if c = '*' ∨ c = '_' ∨ c = '~' then
      match Run.ofContext? c length before (s.drop length).head? with
      | some run => .token (.run run) 0 length
      | none => .plain length
    else .plain 1
  | [] => .plain 1

/-- Reads the tokens of the next `left` characters of a line. The text that is being read starts at
`first`, where the passage goes on with `text`. -/
def readFrom : Nat → Nat → Nat → Option Char → List Char → Nat → List Char → List Token
  | 0, _, _, _, _, _, _ => []
  | fuel + 1, left, place, before, s, first, text =>
    let read : List Token := if first < place then [⟨.text, first, place, text⟩] else []
    if left = 0 then read
    else
      match Step.of before s with
      | .plain n => readFrom fuel (left - n) (place + n) s[n - 1]? (s.drop n) first text
      | .escape =>
        read ++ readFrom fuel (left - 2) (place + 2) s[1]? (s.drop 2) (place + 1) (s.drop 1)
      | .token kind offset length =>
        let n := offset + length
        let token : Token := ⟨kind, place + offset, place + n, s.drop offset⟩
        read ++ token
          :: readFrom fuel (left - n) (place + n) s[n - 1]? (s.drop n) (place + n) (s.drop n)

/-- Reads the tokens of the next `left` characters of a line, which start at a place. -/
def read (left place : Nat) (s : List Char) : List Token :=
  readFrom (left + 1) left place none s place s

end Token

namespace Passage

/-- The characters of a passage with the margins of its lines. -/
def source (passage : Passage) : List Char :=
  passage.lines.flatMap (fun line => line.margin ++ line.content) ++ passage.tail

/-- The tokens of lines that start at a place. The blanks at the end of a line are no text: in front
of another line, two or more make a hard break, as a backslash that is not escaped does. -/
def tokensFrom (place : Nat) (source : List Char) : List TextLine → List Token
  | [] => []
  | line :: rest =>
    let start := place + line.margin.length
    let source := source.drop line.margin.length
    let body := line.content.takeWhile (fun c => !isLineEnd c)
    let blanks := ((line.margin ++ body).reverse.takeWhile isLineBlank).length
    let slashes := (body.reverse.takeWhile (· = '\\')).length
    let stop := start + line.content.length
    let after := tokensFrom stop (source.drop line.content.length) rest
    if rest.isEmpty then Token.read (body.length - blanks) start source
    else if slashes % 2 = 1 then
      let length := body.length - 1
      let token : Token := ⟨.hardBreak true, start + length, stop, source.drop length⟩
      Token.read length start source ++ token :: after
    else
      let length := body.length - blanks
      let kind := if 2 ≤ blanks then TokenKind.hardBreak false else .softBreak
      let token : Token := ⟨kind, start + body.length - blanks, stop, source.drop length⟩
      Token.read length start source ++ token :: after

/-- The tokens of a passage. If it has a limit, its last token stops there. -/
def tokens (passage : Passage) : List Token :=
  let tokens := tokensFrom 0 passage.source passage.lines
  match passage.limit, tokens.getLast? with
  | some limit, some last => tokens.dropLast ++ [{ last with stop := limit }]
  | _, _ => tokens

end Passage

end ComponentMarkdown.CommonMark
