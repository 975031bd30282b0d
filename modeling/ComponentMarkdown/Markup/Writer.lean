import ComponentMarkdown.Markup.AttributeBlock
import ComponentMarkdown.Markup.CodeFence
import ComponentMarkdown.Markup.Placement
import ComponentMarkdown.Yaml.Printer

namespace ComponentMarkdown

/-- The ways of writing a node: those in which a parent may write it. -/
structure Rendering where
  /-- Inside a line of text, given whether a backtick was written just before. -/
  inline : Bool → List Char
  /-- On lines of its own, given the nesting depth of components. A style sheet is not written. -/
  block : Nat → Option (List Char)
  /-- The content as a sequence of blocks, given the depth and the separator of blocks. -/
  content : Nat → List Char → List Char

/-- A node with its rendering. -/
structure Rendered where
  node : Node
  rendering : Rendering

namespace Writer

/-- Between two blocks stands an empty line. -/
def blankLine : List Char := ['\n', '\n']

/-- Whether text written so far ends with a backtick, after more text. -/
def endsInBacktick (before : Bool) (text : List Char) : Bool :=
  match text.getLast? with
  | none => before
  | some c => c = CodeFence.backtick

/-- A list of nodes inside a line of text. -/
def inlines (afterBacktick : Bool) : List Rendered → List Char
  | [] => []
  | item :: rest =>
    let text := item.rendering.inline afterBacktick
    text ++ inlines (endsInBacktick afterBacktick text) rest

/-- The blocks of a sibling list. Inline nodes in a row are one line of text, of which `line` is what
is written of the one that is open; `before` is the node in front. -/
def blockParts (depth : Nat) (line : Option (List Char)) (before : Option Node) :
    List Rendered → List (List Char)
  | [] => line.toList
  | item :: rest =>
    if Node.isInlineBetween before item.node (rest.head?.map Rendered.node) then
      let start := line.getD []
      let text := item.rendering.inline (endsInBacktick false start)
      blockParts depth (some (start ++ text)) (some item.node) rest
    else
      line.toList ++ (item.rendering.block depth).toList
        ++ blockParts depth none (some item.node) rest

/-- A sibling list as blocks with a separator between them. -/
def blocks (items : List Rendered) (depth : Nat) (separator : List Char) : List Char :=
  Text.join separator (blockParts depth none none items)

/-- A heading: as many number signs as its level, then its text. -/
def heading (level : Nat) (items : List Rendered) : List Char :=
  List.replicate level '#' ++ ' ' :: inlines false items

/-- A quotation: every line is marked. -/
def blockquote (items : List Rendered) (depth : Nat) : List Char :=
  Text.join ['\n'] <| (Text.lines (blocks items depth blankLine)).map fun line =>
    if line.isEmpty then ['>'] else '>' :: ' ' :: line

/-- Indents every line but the first; empty lines stay empty. -/
def indentContinuation (width : Nat) (content : List Char) : List Char :=
  match Text.splitOn '\n' content with
  | [] => []
  | first :: rest =>
    Text.join ['\n'] <| first :: rest.map fun line =>
      if line.isEmpty then [] else List.replicate width ' ' ++ line

/-- Whether a node is a paragraph. -/
def isParagraph (node : Node) : Bool := node.tag? = some "p"

/-- Whether a list item holds a paragraph. -/
def holdsParagraph : Node → Bool
  | .element _ _ children => children.any isParagraph
  | _ => false

/-- The numbers of ordered items wrap at this size. -/
def numberLimit : Nat := 0x10000000000000000

/-- The marks of a list's items: a dash, or the numbers from `start` on. -/
def itemMark (ordered : Bool) (start index : Nat) : List Char :=
  if ordered then ((start + index) % numberLimit).repr.toList ++ ['.', ' '] else ['-', ' ']

/-- A list. It is loose, with an empty line between its items and inside them, when an item holds a
paragraph. -/
def list (ordered : Bool) (start : Nat) (items : List Rendered) (depth : Nat) : List Char :=
  let separator := if items.any (fun item => holdsParagraph item.node) then blankLine else ['\n']
  Text.join separator <| items.mapIdx fun index item =>
    let mark := itemMark ordered start index
    let content :=
      if item.node.tag? = some "li" then item.rendering.content depth separator
      else blocks [item] depth separator
    mark ++ indentContinuation mark.length content

/-- The parts of a component's body: what stands between its slots, and each slot under its name.
`run` is the part that is open, last child first. -/
def segments (depth : Nat) (run : List Rendered) : List Rendered → List (List Char)
  | [] => if run.isEmpty then [] else [blocks run.reverse depth blankLine]
  | item :: rest =>
    match item.node.slotName? with
    | none => segments depth (item :: run) rest
    | some name =>
      let body := item.rendering.content depth blankLine
      let slot := '#' :: name.toList ++ if body.isEmpty then [] else '\n' :: body
      (if run.isEmpty then [] else [blocks run.reverse depth blankLine])
        ++ slot :: segments depth [] rest

/-- A component on lines of its own. The fences of nested components have one colon more. -/
def component (tag : String) (attrs : Attrs) (items : List Rendered) (depth : Nat) : List Char :=
  let colons := List.replicate (depth + 2) ':'
  let body := (segments (depth + 1) [] items).filter (fun segment => !segment.isEmpty)
  colons ++ tag.toList ++ AttributeBlock.write attrs []
    ++ body.flatMap (fun segment => '\n' :: segment) ++ '\n' :: colons

/-- Text between two delimiters, with the attributes behind it. -/
def delimited (delimiter : List Char) (attrs : Attrs) (items : List Rendered) : List Char :=
  delimiter ++ inlines false items ++ delimiter ++ AttributeBlock.write attrs []

/-- The destination and title of a link or an image, in parentheses. -/
def target (attrs : Attrs) (key : String) : List Char :=
  let title := match attrs.getString? "title" with
    | none => []
    | some title => ' ' :: AttributeBlock.quoted title
  '(' :: (((attrs.getString? key).getD "").toList ++ title ++ [')'])

/-- A value that the page fills in, with the text that stands for a missing one. -/
def binding (attrs : Attrs) : List Char :=
  let value := ((attrs.getString? "value").getD "").toList
  let default := match attrs.get? "defaultValue" with
    | some (.str s) => " || ".toList ++ '\x27' :: (s.toList ++ ['\x27'])
    | some (.num n) => " || ".toList ++ Json.numberText n
    | _ => []
  "\x7b\x7b ".toList ++ value ++ default ++ " \x7d\x7d".toList

/-- A component inside a line of text. A mark keeps its name apart from what follows. -/
def inlineComponent (tag : String) (attrs : Attrs) (items : List Rendered) : List Char :=
  let written := AttributeBlock.write attrs []
  ':' :: tag.toList
    ++ (if items.isEmpty then [] else '[' :: (inlines false items ++ [']']))
    ++ if written.isEmpty && items.isEmpty then ['\x7b', '\x7d'] else written

/-- An element inside a line of text. -/
def inlineElement (tag : String) (attrs : Attrs) (text : String) (items : List Rendered)
    (afterBacktick : Bool) : List Char :=
  match tag with
  | "strong" => delimited ['*', '*'] attrs items
  | "em" => delimited ['*'] attrs items
  | "del" => delimited ['~', '~'] attrs items
  | "code" =>
    CodeFence.writeSpan afterBacktick text.toList ++ AttributeBlock.write attrs ["class", "style"]
  | "a" =>
    '[' :: (inlines false items ++ ']' :: target attrs "href"
      ++ AttributeBlock.write attrs ["href", "title"])
  | "img" =>
    '!' :: '[' :: (((attrs.getString? "alt").getD "").toList ++ ']' :: target attrs "src"
      ++ AttributeBlock.write attrs ["src", "alt", "title"])
  | "br" => ['\\', '\n']
  | "span" =>
    let written := AttributeBlock.write attrs []
    '[' :: (inlines false items ++ ']' :: if written.isEmpty then ['\x7b', '\x7d'] else written)
  | "binding" => binding attrs
  | "p" => inlines false items
  | "style" => []
  | tag => inlineComponent tag attrs items

/-- A code block: the code of its attribute, or else its text. -/
def code (attrs : Attrs) (text : String) : List Char :=
  CodeFence.write
    ⟨attrs.getString? "language", attrs.getString? "filename", attrs.getString? "meta"⟩
    ((attrs.getString? "code").getD text).toList

/-- An element on lines of its own. -/
def blockElement (tag : String) (attrs : Attrs) (text : String) (items : List Rendered)
    (depth : Nat) : Option (List Char) :=
  match tag with
  | "p" => some (inlines false items)
  | "h1" => some (heading 1 items)
  | "h2" => some (heading 2 items)
  | "h3" => some (heading 3 items)
  | "h4" => some (heading 4 items)
  | "h5" => some (heading 5 items)
  | "h6" => some (heading 6 items)
  | "hr" => some ['-', '-', '-']
  | "blockquote" => some (blockquote items depth)
  | "ul" => some (list false 1 items depth)
  | "ol" => some (list true (((attrs.get? "start").bind Value.asNat?).getD 1) items depth)
  | "pre" => some (code attrs text)
  | "html" => some text.toList
  | "style" => none
  | tag => some (component tag attrs items depth)

/-- A comment. -/
def comment (text : String) : List Char := "<!--".toList ++ text.toList ++ "-->".toList

end Writer

mutual

/-- A node with the ways of writing it. -/
def Node.render : Node → Rendered
  | .text content =>
    ⟨.text content, fun _ => content.toList, fun _ => some content.toList, fun _ _ => []⟩
  | .comment content =>
    ⟨.comment content, fun _ => Writer.comment content, fun _ => some (Writer.comment content),
      fun _ _ => []⟩
  | .element tag attrs children =>
    let items := Node.renderAll children
    let text := Node.textOf children
    ⟨.element tag attrs children, Writer.inlineElement tag attrs text items,
      Writer.blockElement tag attrs text items, Writer.blocks items⟩

/-- The nodes of a list with the ways of writing them. -/
def Node.renderAll : List Node → List Rendered
  | [] => []
  | node :: rest => node.render :: Node.renderAll rest

end

namespace Writer

/-- The frontmatter block: nothing for `null` and an empty object, a text as it stands, anything else
as YAML. -/
def frontmatter : Value → List Char
  | .null => []
  | .obj [] => []
  | v =>
    let yaml := match v with
      | .str raw => Text.dropEndWhile (· = '\n') raw.toList ++ ['\n']
      | v => Yaml.render v
    "---\n".toList ++ yaml ++ "---\n\n".toList

end Writer

namespace Tree

/-- The blocks of a tree as markdown, without the frontmatter. -/
def bodyText (tree : Tree) : List Char :=
  let body := Writer.blocks (Node.renderAll tree.nodes) 0 Writer.blankLine
  if body.isEmpty then [] else body ++ ['\n']

/-- A tree as markdown, with or without its frontmatter. -/
def toMarkdown (tree : Tree) (skipFrontmatter : Bool) : String :=
  String.ofList
    ((if skipFrontmatter then [] else Writer.frontmatter tree.frontmatter) ++ tree.bodyText)

end Tree

end ComponentMarkdown
