import ComponentMarkdown.Yaml.ScalarText

namespace ComponentMarkdown.Yaml

/-- The parts of a YAML text. Indentation and the colons behind keys are tokens of their own. A scalar says
whether it was written plain. -/
inductive Token where
  | directive
  | documentStart
  | documentEnd
  | blockSequenceStart
  | blockMappingStart
  | blockEnd
  | flowSequenceStart
  | flowSequenceEnd
  | flowMappingStart
  | flowMappingEnd
  | blockEntry
  | flowEntry
  | key
  | value
  | alias (name : List Char)
  | anchor (name : List Char)
  | tag (name : List Char)
  | scalar (text : List Char) (plain : Bool)
deriving DecidableEq, Repr, Inhabited

/-- A place where a key may have started: the number of tokens in front of it, its line and its
offset there. A required one has to turn out to be a key. -/
structure KeyPlace where
  tokens : Nat
  line : Nat
  column : Nat
  left : Nat
  required : Bool
deriving DecidableEq, Repr, Inhabited

/-- What the scanner has read. The key places belong to the open brackets, innermost first; the last
one is that of the block outside. -/
structure Scanner where
  cursor : Cursor
  tokens : Array Token
  indent : Int
  indents : List Int
  keys : List (Option KeyPlace)
  keyAllowed : Bool
deriving Inhabited

namespace Scanner

def start (text : List Char) : Scanner := ⟨.start text, #[], -1, [], [none], true⟩

def inFlow (s : Scanner) : Bool := 1 < s.keys.length

def emit (s : Scanner) (token : Token) : Scanner := { s with tokens := s.tokens.push token }

def allowKey (s : Scanner) (allowed : Bool) : Scanner := { s with keyAllowed := allowed }

def moveTo (s : Scanner) (cursor : Cursor) : Scanner := { s with cursor := cursor }

def skip (s : Scanner) (n : Nat) : Scanner := s.moveTo (s.cursor.skip n)

/-- Closes the blocks that are indented deeper than a column. -/
def unindent (column : Int) : Nat → Scanner → Scanner
  | 0, s => s
  | fuel + 1, s =>
    if s.inFlow ∨ s.indent ≤ column then s
    else
      let s := s.emit .blockEnd
      match s.indents with
      | [] => { s with indent := -1 }
      | outer :: rest => unindent column fuel { s with indent := outer, indents := rest }

/-- Closes the blocks that are indented deeper than a column. -/
def closeTo (s : Scanner) (column : Int) : Scanner := s.unindent column (s.indents.length + 1)

/-- Opens a block collection at a column if it is deeper than the open one, in front of the token
with the given number. -/
def openAt (s : Scanner) (column : Nat) (number : Nat) (token : Token) : Scanner :=
  if !s.inFlow ∧ s.indent < column then
    { s with
      indent := column
      indents := s.indent :: s.indents
      tokens := s.tokens.toList.insertIdx number token |>.toArray }
  else s

/-- Gives up the key place of the innermost level. A required one must not be given up. -/
def dropKey? (s : Scanner) : Option Scanner :=
  match s.keys with
  | some place :: rest => if place.required then none else some { s with keys := none :: rest }
  | _ => some s

/-- Notes that a key may start here. -/
def noteKey? (s : Scanner) : Option Scanner :=
  if s.keyAllowed then do
    let s ← s.dropKey?
    let place : KeyPlace :=
      { tokens := s.tokens.size
        line := s.cursor.line
        column := s.cursor.column
        left := s.cursor.rest.length
        required := !s.inFlow && s.indent == s.cursor.column }
    return { s with keys := some place :: s.keys.tail }
  else some s

def openLevel (s : Scanner) : Scanner := { s with keys := none :: s.keys }

def closeLevel (s : Scanner) : Scanner :=
  if s.inFlow then { s with keys := s.keys.tail } else s

/-- The key place of the innermost level, if it is on this line and not too far away. -/
def keyPlace? (s : Scanner) : Option (Option KeyPlace) :=
  match s.keys with
  | some place :: _ =>
    if place.line < s.cursor.line ∨ s.cursor.rest.length + 1024 < place.left then
      if place.required then none else some none
    else some (some place)
  | _ => some none

/-- Moves to the next token over blanks, comments and breaks. A tab is no indentation. -/
def toToken : Nat → Scanner → Scanner
  | 0, s => s
  | fuel + 1, s =>
    let tabs := s.inFlow || !s.keyAllowed
    let cursor := s.cursor.skipWhile (fun c => c = ' ' || (tabs && c = '\t'))
    let cursor :=
      if cursor.next (· = '#') then cursor.skipWhile (fun c => !isBreak c) else cursor
    if cursor.atBreak then
      toToken fuel { s with cursor := cursor.skipLine, keyAllowed := s.keyAllowed || !s.inFlow }
    else s.moveTo cursor

/-- The number of a nonempty digit list that is not too long. -/
def versionNumber? (digits : List Char) : Option Nat :=
  if digits.length ≤ 9 then natural? 10 digits else none

/-- A directive line. Only the version line of YAML 1.1 and 1.2 is known. -/
def directive? (s : Scanner) : Option Scanner := do
  let s ← (s.closeTo (-1)).dropKey?
  let line := s.cursor.rest.takeWhile (fun c => !isBreak c)
  match (line.drop 1).takeWhile (fun c => !isBlankOrBreak c) with
  | 'Y' :: 'A' :: 'M' :: 'L' :: [] =>
    let version := (line.drop 5).dropWhile isTabOrSpace
    let major := version.takeWhile Char.isDigit
    match version.drop major.length with
    | '.' :: rest =>
      let minor := rest.takeWhile Char.isDigit
      let after := (rest.drop minor.length).dropWhile isTabOrSpace
      let known := versionNumber? major = some 1
        ∧ (versionNumber? minor = some 1 ∨ versionNumber? minor = some 2)
      if known ∧ (after.isEmpty ∨ after.head? = some '#') then
        some ((s.skip line.length).allowKey false |>.emit .directive)
      else none
    | _ => none
  | _ => none

/-- A line between documents. -/
def documentMark? (s : Scanner) (token : Token) : Option Scanner := do
  let s ← (s.closeTo (-1)).dropKey?
  return ((s.allowKey false).skip 3).emit token

def flowStart? (s : Scanner) (token : Token) : Option Scanner := do
  let s ← s.noteKey?
  return ((s.openLevel.allowKey true).skip 1).emit token

def flowEnd? (s : Scanner) (token : Token) : Option Scanner := do
  let s ← s.dropKey?
  return ((s.closeLevel.allowKey false).skip 1).emit token

def flowEntry? (s : Scanner) : Option Scanner := do
  let s ← s.dropKey?
  return ((s.allowKey true).skip 1).emit .flowEntry

/-- The dash of a block sequence, or the question mark of a key. -/
def blockMark? (s : Scanner) (collection token : Token) (allowed : Bool) : Option Scanner := do
  if !s.inFlow ∧ !s.keyAllowed then none
  let s := s.openAt s.cursor.column s.tokens.size collection
  let s ← s.dropKey?
  return ((s.allowKey allowed).skip 1).emit token

/-- The colon between a key and its value. -/
def value? (s : Scanner) : Option Scanner := do
  match ← s.keyPlace? with
  | some place =>
    let tokens := (s.tokens.toList.insertIdx place.tokens .key).toArray
    let s := { s with tokens := tokens, keys := none :: s.keys.tail }
    let s := s.openAt place.column place.tokens .blockMappingStart
    return ((s.allowKey false).skip 1).emit .value
  | none =>
    if !s.inFlow ∧ !s.keyAllowed then none
    let s := { s with keys := none :: s.keys.tail }
    let s := s.openAt s.cursor.column s.tokens.size .blockMappingStart
    return ((s.allowKey (!s.inFlow)).skip 1).emit .value

def isAnchorChar (c : Char) : Bool := c.isAlphanum || c = '_' || c = '-'

/-- The name of an anchor or an alias. -/
def anchor? (s : Scanner) (token : List Char → Token) : Option Scanner := do
  let s := (← s.noteKey?).allowKey false
  let name := (s.cursor.rest.drop 1).takeWhile isAnchorChar
  let s := s.skip (1 + name.length)
  let ended := s.cursor.blankAt 0
    || s.cursor.next (fun c => c ∈ ['?', ':', ',', ']', '\x7d', '%', '@', '\x60'])
  if name.isEmpty ∨ !ended then none
  return s.emit (token name)

def isTagChar (c : Char) : Bool :=
  c.isAlphanum || c ∈ ['_', '-', ';', '/', '?', ':', '@', '&', '=', '+', '$', '.', '!', '~', '*',
    '\x27', '(', ')', '%']

/-- The name of a tag: in angle brackets, of the common kind behind two marks, or a local one. -/
def tag? (s : Scanner) : Option Scanner := do
  let s := (← s.noteKey?).allowKey false
  let (name, length) ← match s.cursor.rest with
    | '!' :: '<' :: rest =>
      let uri := rest.takeWhile (fun c => isTagChar c || c = ',' || c = '[' || c = ']')
      if uri.isEmpty ∨ (rest.drop uri.length).head? ≠ some '>' then none
      else some (uri, uri.length + 3)
    | '!' :: '!' :: rest =>
      let suffix := rest.takeWhile isTagChar
      if suffix.isEmpty then none
      else some ("tag:yaml.org,2002:".toList ++ suffix, suffix.length + 2)
    | '!' :: rest =>
      let suffix := rest.takeWhile isTagChar
      if (rest.dropWhile isAnchorChar).head? = some '!' then none
      else some ('!' :: suffix, suffix.length + 1)
    | _ => none
  let s := s.skip length
  if !(s.cursor.blankAt 0 || (s.inFlow && s.cursor.next (· = ','))) then none
  return s.emit (.tag name)

def blockScalar? (s : Scanner) (literal : Bool) : Option Scanner := do
  let s := (← s.dropKey?).allowKey true
  let (text, cursor) ← block? literal s.indent (s.cursor.rest.length + 2) (s.cursor.skip 1)
  return (s.moveTo cursor).emit (.scalar text false)

def quotedScalar? (s : Scanner) (single : Bool) : Option Scanner := do
  let s := (← s.noteKey?).allowKey false
  let (text, cursor) ← quoted? single (s.cursor.rest.length + 2) [] (s.cursor.skip 1)
  return (s.moveTo cursor).emit (.scalar text false)

def plainScalar? (s : Scanner) : Option Scanner := do
  let s := (← s.noteKey?).allowKey false
  let (text, broken, cursor) ←
    plain? s.inFlow (s.indent + 1).toNat (s.cursor.rest.length + 2) [] .none_ s.cursor
  return ((s.moveTo cursor).allowKey broken).emit (.scalar text true)

/-- The next token. -/
def token? (s : Scanner) : Option Scanner :=
  match s.cursor.rest with
  | [] => none
  | c :: _ =>
    let blank := s.cursor.blankAt 1
    if s.cursor.column = 0 ∧ c = '%' then s.directive?
    else if s.cursor.atDocumentMark then
      s.documentMark? (if c = '-' then .documentStart else .documentEnd)
    else if c = '[' then s.flowStart? .flowSequenceStart
    else if c = '\x7b' then s.flowStart? .flowMappingStart
    else if c = ']' then s.flowEnd? .flowSequenceEnd
    else if c = '\x7d' then s.flowEnd? .flowMappingEnd
    else if c = ',' then s.flowEntry?
    else if c = '-' ∧ blank then s.blockMark? .blockSequenceStart .blockEntry true
    else if c = '?' ∧ (s.inFlow ∨ blank) then s.blockMark? .blockMappingStart .key (!s.inFlow)
    else if c = ':' ∧ (s.inFlow ∨ blank) then s.value?
    else if c = '*' then s.anchor? .alias
    else if c = '&' then s.anchor? .anchor
    else if c = '!' then s.tag?
    else if c = '|' ∧ !s.inFlow then s.blockScalar? true
    else if c = '>' ∧ !s.inFlow then s.blockScalar? false
    else if c = '\x27' then s.quotedScalar? true
    else if c = '\x22' then s.quotedScalar? false
    else if c ∈ startIndicators ∨ isBlankOrBreak c then none
    else s.plainScalar?

/-- Reads tokens up to the end of the text. -/
def run? : Nat → Scanner → Option Scanner
  | 0, _ => none
  | fuel + 1, s =>
    let s := toToken (s.cursor.rest.length + 1) s
    let s := s.closeTo s.cursor.column
    if s.cursor.atEnd then (s.closeTo (-1)).dropKey?
    else (token? s).bind (run? fuel)

end Scanner

/-- The characters that a text may hold. -/
def isAllowed (c : Char) : Bool := isPrintable c || c ∈ ['\t', '\r', '\u0085', '\ufeff']

/-- The tokens of a text. -/
def tokens? (text : List Char) : Option (List Token) :=
  let text := if text.head? = some '\ufeff' then text.tail else text
  if !text.all isAllowed then none
  else (Scanner.run? (text.length + 2) (Scanner.start text)).map (fun s => s.tokens.toList)

end ComponentMarkdown.Yaml
