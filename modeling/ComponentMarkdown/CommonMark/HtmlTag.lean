import ComponentMarkdown.CommonMark.Line
import ComponentMarkdown.Text.Lines

namespace ComponentMarkdown.CommonMark.HtmlTag

/-- What was read, and the characters behind it. -/
abbrev Reading := Option (List Char × List Char)

/-- The text behind the margin of the next line, `none` where a line end is not allowed. -/
abbrev NextLine := List Char → Option (List Char)

/-- The characters of a tag name after the first. -/
def isNameChar (c : Char) : Bool := c.isAlphanum || c = '-'

/-- The characters at the start of an attribute name. -/
def isAttributeStart (c : Char) : Bool := c.isAlpha || c = '_' || c = ':'

/-- The characters of an attribute name after the first. -/
def isAttributeChar (c : Char) : Bool := isAttributeStart c || c.isDigit || c = '.' || c = '-'

/-- The characters of a value without quotes. -/
def isBareChar (c : Char) : Bool :=
  c ∉ [' ', '\n', '\r', '\x22', '\x27', '=', '<', '>', '\x60']

/-- Blanks and line ends. -/
def blanks? (next : NextLine) : Nat → List Char → Reading
  | 0, _ => none
  | _ + 1, [] => some ([], [])
  | fuel + 1, c :: rest =>
    if isLineBlank c then
      (blanks? next fuel rest).map fun (text, after) => (c :: text, after)
    else
      match lineEnd? (c :: rest) with
      | some (ending, after) => do
        let after ← next after
        let (text, after) ← blanks? next fuel after
        some (ending ++ text, after)
      | none => some ([], c :: rest)

/-- A quoted value behind its opening quote, with the closing one. -/
def quoted? (next : NextLine) (quote : Char) : Nat → List Char → Reading
  | 0, _ => none
  | _ + 1, [] => none
  | fuel + 1, c :: rest =>
    if c = quote then some ([c], rest)
    else
      match lineEnd? (c :: rest) with
      | some (ending, after) => do
        let after ← next after
        let (text, after) ← quoted? next quote fuel after
        some (ending ++ text, after)
      | none => (quoted? next quote fuel rest).map fun (text, after) => (c :: text, after)

/-- An attribute value. -/
def value? (next : NextLine) (fuel : Nat) (s : List Char) : Reading :=
  match s with
  | [] => none
  | c :: rest =>
    if c = '\x22' ∨ c = '\x27' then
      (quoted? next c fuel rest).map fun (text, after) => (c :: text, after)
    else if isBareChar c then
      let text := s.takeWhile isBareChar
      some (text, s.drop text.length)
    else none

/-- An attribute, which may have a value. -/
def attribute? (next : NextLine) (fuel : Nat) (s : List Char) : Reading :=
  match s with
  | [] => none
  | c :: rest =>
    if !isAttributeStart c then none
    else
      let name := c :: rest.takeWhile isAttributeChar
      let afterName := s.drop name.length
      match blanks? next fuel afterName with
      | none => none
      | some (blanks, '=' :: after) => do
        let (more, after) ← blanks? next fuel after
        let (value, after) ← value? next fuel after
        some (name ++ blanks ++ '=' :: more ++ value, after)
      | some _ => some (name, afterName)

/-- The attributes of an opening tag and its end. Every attribute has a blank in front. -/
def attributes? (next : NextLine) : Nat → List Char → Reading
  | 0, _ => none
  | fuel + 1, s =>
    match blanks? next (fuel + 1) s with
    | none => none
    | some (blanks, '>' :: after) => some (blanks ++ ['>'], after)
    | some (blanks, '/' :: '>' :: after) => some (blanks ++ ['/', '>'], after)
    | some (blanks, after) =>
      if blanks.isEmpty then none
      else do
        let (found, after) ← attribute? next (fuel + 1) after
        let (more, after) ← attributes? next fuel after
        some (blanks ++ found ++ more, after)

/-- A tag. A closing tag stands on one line. -/
def tag? (next : NextLine) (s : List Char) : Reading :=
  match s with
  | '<' :: '/' :: c :: rest =>
    if !c.isAlpha then none
    else
      match (rest.dropWhile isNameChar).dropWhile isLineBlank with
      | '>' :: after => some (s.take (s.length - after.length), after)
      | _ => none
  | '<' :: c :: rest =>
    if !c.isAlpha then none
    else
      let name := rest.takeWhile isNameChar
      (attributes? next (rest.length + 1) (rest.drop name.length)).map
        fun (text, after) => ('<' :: c :: name ++ text, after)
  | _ => none

/-- The text behind the first occurrence of a mark. -/
def afterMark? (mark : List Char) : List Char → Option (List Char)
  | [] => if mark.isEmpty then some [] else none
  | c :: rest =>
    match Text.after? mark (c :: rest) with
    | some after => some after
    | none => afterMark? mark rest

/-- The text behind the first closing brackets of character data, if the mark `>` follows them. -/
def afterData? (s : List Char) : Option (List Char) :=
  match s.dropWhile (· ≠ ']') with
  | [] => none
  | s =>
    match s.dropWhile (· = ']') with
    | '>' :: after => some after
    | _ => none

/-- The text behind a comment, an instruction, character data or a declaration. -/
def afterSpecial? (s : List Char) : Option (List Char) :=
  match s with
  | '<' :: '?' :: rest => afterMark? ['?', '>'] rest
  | '<' :: '!' :: '-' :: '-' :: rest => afterMark? ['-', '-', '>'] ('-' :: '-' :: rest)
  | '<' :: '!' :: '[' :: 'C' :: 'D' :: 'A' :: 'T' :: 'A' :: '[' :: rest => afterData? rest
  | '<' :: '!' :: c :: rest => if c.isAlpha then afterMark? ['>'] rest else none
  | _ => none

/-- A piece of raw HTML inside a line of text. A tag leaves the margins of its lines out; anything else
is what the document holds, margins and all. -/
def inline? (next : NextLine) (s : List Char) : Reading :=
  match afterSpecial? s with
  | some after => some (s.take (s.length - after.length), after)
  | none => tag? next s

/-- The tags that start a block of raw HTML wherever they start a line. -/
def blockNames : List String :=
  ["address", "article", "aside", "base", "basefont", "blockquote", "body", "caption", "center",
    "col", "colgroup", "dd", "details", "dialog", "dir", "div", "dl", "dt", "fieldset",
    "figcaption", "figure", "footer", "form", "frame", "frameset", "h1", "h2", "h3", "h4", "h5",
    "h6", "head", "header", "hr", "html", "iframe", "legend", "li", "link", "main", "menu",
    "menuitem", "nav", "noframes", "ol", "optgroup", "option", "p", "param", "search", "section",
    "summary", "table", "tbody", "td", "tfoot", "th", "thead", "title", "tr", "track", "ul"]

/-- The tags whose block ends at their closing tag. -/
def rawNames : List String := ["pre", "style", "script", "textarea"]

def lower (s : List Char) : List Char := s.map Char.toLower

/-- The mark that ends the block of raw HTML that a line starts, for the blocks that a mark ends. -/
def endMark? (s : List Char) : Option (List Char) :=
  match s with
  | '<' :: rest =>
    let raw := rawNames.find? fun name =>
      let size := name.length
      lower (rest.take size) = name.toList
        && (rest.drop size).head?.all (fun c => isSpace c || c = '>')
    match raw with
    | some name => some ("</".toList ++ name.toList ++ ['>'])
    | none =>
      match rest with
      | '!' :: '-' :: '-' :: _ => some ['-', '-', '>']
      | '?' :: _ => some ['?', '>']
      | '!' :: '[' :: 'C' :: 'D' :: 'A' :: 'T' :: 'A' :: '[' :: _ => some [']', ']', '>']
      | '!' :: c :: _ => if c.isAlpha then some ['>'] else none
      | _ => none
  | _ => none

/-- Whether a line starts a block of raw HTML with one of the block tags. -/
def startsBlock (s : List Char) : Bool :=
  match s with
  | '<' :: rest =>
    let rest := if rest.head? = some '/' then rest.tail else rest
    let name := rest.takeWhile Char.isAlphanum
    blockNames.contains (String.ofList (lower name))
      && match rest.drop name.length with
        | [] => true
        | '/' :: '>' :: _ => true
        | c :: _ => c ∈ [' ', '\t', '\r', '\n', '>']
  | _ => false

/-- Whether a line is a single tag of any name. -/
def isTagAlone (s : List Char) : Bool :=
  match tag? (fun _ => none) (takeLine s).1 with
  | some (_, after) => (afterBlankLine? after).isSome
  | none => false

end ComponentMarkdown.CommonMark.HtmlTag
