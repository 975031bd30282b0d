import ComponentMarkdown.CommonMark.BlockReader
import ComponentMarkdown.CommonMark.InlineReader
import ComponentMarkdown.Markup.CodeInfo
import ComponentMarkdown.Markup.Inline

namespace ComponentMarkdown

/-- Appends a node to a sibling list. Empty text is dropped, and text in a row is joined. -/
def Node.appendTo (siblings : List Node) : Node → List Node
  | .text content =>
    if content.isEmpty then siblings
    else
      match siblings.getLast? with
      | some (.text before) => siblings.dropLast ++ [.text (before ++ content)]
      | _ => siblings ++ [.text content]
  | node => siblings ++ [node]

/-- A sibling list without empty text, and with text in a row joined. -/
def Node.joinTexts (nodes : List Node) : List Node := nodes.foldl Node.appendTo []

namespace Markdown

open CommonMark

/-- An element whose children are complete. -/
def element (tag : String) (attrs : Attrs) (children : List Node) : Node :=
  .element tag attrs (Inline.apply (Node.joinTexts children))

/-- The text of a comment that is all of a piece of raw HTML. -/
def commentText? (raw : List Char) : Option (List Char) :=
  match Text.trim raw with
  | '<' :: '!' :: '-' :: '-' :: rest =>
    match rest.reverse with
    | '>' :: '-' :: '-' :: inner => some inner.reverse
    | _ => none
  | _ => none

/-- A block of raw HTML: a comment, or an `html` element that keeps the text. -/
def htmlBlock (raw : List Char) : Node :=
  let raw := Text.dropEndWhile (· = '\n') raw
  match commentText? raw with
  | some text => .comment (String.ofList text)
  | none => .element "html" [] [.text (String.ofList raw)]

/-- Raw HTML inside a line of text: a comment, or the text itself. -/
def htmlInline (raw : List Char) : Node :=
  match commentText? raw with
  | some text => .comment (String.ofList text)
  | none => .text (String.ofList raw)

/-- A code block. Its `code` attribute and the text of its inner element are both the code. -/
def codeBlock (info content : List Char) : Node :=
  let code := String.ofList (if content.getLast? = some '\n' then content.dropLast else content)
  let info := CodeFence.Info.read info
  let given := fun (key : String) (value : Option String) =>
    value.toList.map fun s => (key, Value.str s)
  let attrs : Attrs :=
    given "language" info.language ++ given "filename" info.filename ++ given "meta" info.meta?
      ++ [("code", .str code)]
  .element "pre" attrs [.element "code" [("__ignoreMap", .str "")] [.text code]]

/-- An attribute that is left out when it is empty. -/
def titleAttr (title : List Char) : Attrs :=
  if title.isEmpty then [] else [("title", .str (String.ofList title))]

/-- An image. Its text is what its content holds of text. -/
def image (destination title : List Char) (content : List Node) : Node :=
  .element "img"
    (("src", .str (String.ofList destination)) :: ("alt", .str (Node.textOf content))
      :: titleAttr title)
    []

mutual

/-- The node of inline content. -/
def inlineNode : CommonMark.Inline → Node
  | .text content => .text (String.ofList content)
  | .code content => .element "code" [] [.text (String.ofList content)]
  | .html content => htmlInline content
  | .softBreak => .text "\n"
  | .hardBreak => .element "br" [] []
  | .emphasis content => element "em" [] (inlineNodes content)
  | .strong content => element "strong" [] (inlineNodes content)
  | .strikethrough content => element "del" [] (inlineNodes content)
  | .link destination title content =>
    element "a" (("href", .str (String.ofList destination)) :: titleAttr title)
      (inlineNodes content)
  | .image destination title content => image destination title (inlineNodes content)

/-- The nodes of inline content. -/
def inlineNodes : List CommonMark.Inline → List Node
  | [] => []
  | inline :: rest => inlineNode inline :: inlineNodes rest

end

/-- The tag of a heading. -/
def headingTag (level : Nat) : String := "h" ++ level.repr

/-- The nodes of the text of a paragraph or a heading. -/
def textNodes (definitions : Definitions) (text : Passage) : List Node :=
  inlineNodes (InlineReader.read definitions text)

mutual

/-- The nodes of a block. The paragraphs in the items of a tight list are not marked as such. -/
def blockNodes (definitions : Definitions) (tight : Bool) : Block → List Node
  | .paragraph text =>
    if tight then textNodes definitions text
    else [element "p" [] (textNodes definitions text)]
  | .heading level text => [element (headingTag level) [] (textNodes definitions text)]
  | .rule => [.element "hr" [] []]
  | .code info content => [codeBlock info content]
  | .html content => [htmlBlock content]
  | .quote blocks => [element "blockquote" [] (blocksNodes definitions false blocks)]
  | .list start tight items =>
    match start with
    | none => [element "ul" [] (blocksNodes definitions tight items)]
    | some number =>
      let attrs : Attrs := if number = 1 then [] else [("start", .num (.int number))]
      [element "ol" attrs (blocksNodes definitions tight items)]
  | .item blocks => [element "li" [] (blocksNodes definitions tight blocks)]

/-- The nodes of a list of blocks. -/
def blocksNodes (definitions : Definitions) (tight : Bool) : List Block → List Node
  | [] => []
  | block :: rest => blockNodes definitions tight block ++ blocksNodes definitions tight rest

end

/-- The nodes of a text of plain markdown. -/
def parse (source : List Char) : List Node :=
  let document := Document.read source
  Inline.apply (Node.joinTexts (blocksNodes document.definitions false document.blocks))

end Markdown

end ComponentMarkdown
