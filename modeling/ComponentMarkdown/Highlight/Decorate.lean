import ComponentMarkdown.Highlight.Token
import ComponentMarkdown.Markup.Node
import ComponentMarkdown.Text.Blank

namespace ComponentMarkdown.Highlight

/-- The class of decorated code. -/
def decoratedClass : String := "mdc-highlight"

/-- The style of a token: its colour, and its colours in the variants as properties. -/
def tokenStyle (palette : Palette) (token : Token) : String :=
  "color:" ++ token.color palette.default
    ++ String.join (palette.variants.map fun (name, theme) =>
        ";--mdc-" ++ name ++ ":" ++ token.color theme)

/-- A piece of a line in one style. -/
structure StyledText where
  style : String
  text : List Char
deriving DecidableEq, Repr, Inhabited

/-- The pieces of a line, neighbours with one style joined. -/
def styled (palette : Palette) : List Token → List StyledText
  | [] => []
  | token :: rest =>
    let tail := styled palette rest
    if token.text.isEmpty then tail
    else
      let style := tokenStyle palette token
      match tail with
      | [] => [⟨style, token.text⟩]
      | next :: more =>
        if style = next.style then ⟨style, token.text ++ next.text⟩ :: more
        else ⟨style, token.text⟩ :: next :: more

/-- The span of a piece. -/
def StyledText.toNode (piece : StyledText) : Node :=
  .element "span" [("style", .str piece.style)] [.text (String.ofList piece.text)]

def tokenNodes (palette : Palette) (line : Line) : List Node :=
  (styled palette line.tokens).map StyledText.toNode

/-- The line feed that ends a line. -/
def lineEnd (line : Line) : List Node := if line.ended then [.text "\n"] else []

/-- The lines of a block, each in a span of its own. -/
def blockNodes (palette : Palette) (lines : List Line) : List Node :=
  lines.flatMap fun line =>
    .element "span" [("class", .str "line")] (tokenNodes palette line) :: lineEnd line

/-- The lines of code that stands inside a line of text. -/
def inlineNodes (palette : Palette) (lines : List Line) : List Node :=
  lines.flatMap fun line => tokenNodes palette line ++ lineEnd line

/-- The class attribute without the class of decorated code. -/
def classWithout (names : String) : Attrs :=
  let kept := (Text.words names.toList).filter (· ≠ decoratedClass.toList)
  if kept.isEmpty then [] else [("class", .str (String.ofList (Text.join [' '] kept)))]

/-- Attributes without what decoration adds: the class of decorated code, and styles. -/
def stripped (attrs : Attrs) : Attrs :=
  attrs.flatMap fun
    | ("style", _) => []
    | ("class", .str names) => classWithout names
    | entry => [entry]

/-- Attributes with the class of decorated code. -/
def withClass (attrs : Attrs) : Attrs :=
  let names := match attrs.getString? "class" with
    | some existing => existing ++ " " ++ decoratedClass
    | none => decoratedClass
  attrs.insert "class" (.str names)

/-- Code in colours, if the themes are known, a language is given, and the code can be cut into tokens. -/
def coloured? (tokenizer : Tokenizer) (palette : Option Palette)
    (write : Palette → List Line → List Node) (language : Option String) (code : String) :
    Option (List Node) := do
  let palette ← palette
  let lines ← tokenizer.lines? (← language) code.toList
  return write palette lines

/-- The source of a code block. Its attribute `code` counts before its content. -/
def sourceOf (attrs : Attrs) (content : String) : String := (attrs.getString? "code").getD content

/-- The language that a code block names. -/
def languageOf? (attrs : Attrs) : Option String := (attrs.getString? "language").filter (· ≠ "")

/-- Attributes with the source of a code block, unless they have something in its place. -/
def withSource (attrs : Attrs) (code : String) : Attrs :=
  if attrs.contains "code" then attrs else attrs.insert "code" (.str code)

/-- The attributes that a code block keeps. -/
def keptAttrs (attrs : Attrs) (content : String) : Attrs :=
  withSource (stripped attrs) (sourceOf attrs content)

/-- The element around the code of a block. -/
def innerCode (children : List Node) : Node := .element "code" [("__ignoreMap", .str "")] children

/-- A decorated code block. Only a language that is named gets colours. -/
def decoratedBlock (tokenizer : Tokenizer) (palette : Option Palette) (attrs : Attrs)
    (content : String) : Node :=
  let code := sourceOf attrs content
  match coloured? tokenizer palette blockNodes (languageOf? attrs) code with
  | some nodes => .element "pre" (withClass (keptAttrs attrs content)) [innerCode nodes]
  | none => .element "pre" (keptAttrs attrs content) [innerCode [.text code]]

/-- Decorated code inside a line of text. -/
def decoratedSpan (tokenizer : Tokenizer) (palette : Option Palette) (attrs : Attrs)
    (content : String) : Node :=
  let kept := stripped attrs
  let language := (attrs.getString? "language").getD ""
  match coloured? tokenizer palette inlineNodes (some language) content with
  | some nodes => .element "code" (withClass kept) nodes
  | none => .element "code" kept [.text content]

mutual

/-- A node with all code in it decorated: code blocks, and code inside a line that names its language, get a span
for every token. What was there before is taken off first. -/
def decorated (tokenizer : Tokenizer) (palette : Option Palette) : Node → Node
  | .element tag attrs children =>
    if tag = "pre" then decoratedBlock tokenizer palette attrs (Node.textOf children)
    else if tag = "code" ∧ attrs.contains "language" then
      decoratedSpan tokenizer palette attrs (Node.textOf children)
    else .element tag attrs (decoratedList tokenizer palette children)
  | node => node

def decoratedList (tokenizer : Tokenizer) (palette : Option Palette) : List Node → List Node
  | [] => []
  | node :: rest => decorated tokenizer palette node :: decoratedList tokenizer palette rest

end

/-- The style sheet that switches to a variant where the page names it. -/
def styleSheet (palette : Palette) : List Node :=
  if palette.variants.isEmpty then []
  else
    let rules := palette.variants.map fun (name, _) =>
      "html." ++ name ++ " ." ++ decoratedClass ++ " span \x7b color: var(--mdc-" ++ name
        ++ ") !important; \x7d"
    [.element "style" [] [.text ("\n".intercalate rules)]]

/-- The style sheet of a choice, if all its themes are known. -/
def sheetOf (choice : ThemeChoice) : List Node :=
  match choice.palette? with
  | some palette => styleSheet palette
  | none => []

/-- The nodes of a tree without the style sheets at its top. -/
def contentOf (tree : Tree) : List Node := tree.nodes.filter fun node => node.tag? ≠ some "style"

/-- A tree with all code in it decorated, and the style sheet at its end. Style sheets that stand at
the top are taken away first. -/
def decorateTree (tokenizer : Tokenizer) (choice : ThemeChoice) (tree : Tree) : Tree :=
  { tree with
    nodes := decoratedList tokenizer choice.palette? (contentOf tree) ++ sheetOf choice }

end ComponentMarkdown.Highlight
