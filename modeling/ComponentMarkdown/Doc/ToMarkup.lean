import ComponentMarkdown.Doc.Nesting
import ComponentMarkdown.Doc.Node
import ComponentMarkdown.Doc.OfMarkup
import ComponentMarkdown.Markup.Placement

namespace ComponentMarkdown

/-- A node of the document with the two ways in which its parent may need it written: among blocks and inside a
line. Each node combines what its children are written as. -/
structure Writing where
  node : DocNode
  /-- Among blocks, given whether what stands in front of it is inline. -/
  block : Bool → Slugged (List Node)
  /-- Inside a line of text. -/
  inline : Slugged (List MarkedNode)

namespace Writing

/-- The nodes of a list inside a line of text. -/
def marked : List Writing → Slugged (List MarkedNode)
  | [] => return []
  | item :: rest => do
    let nodes ← item.inline
    let tail ← marked rest
    return nodes ++ tail

/-- A line of text, its marks folded into elements. -/
def line [Surroundings] (items : List Writing) : Slugged (List Node) := do
  return Node.joinSplitMarks (MarkedNode.nest (MarkedNode.coalesce (← marked items)))

/-- Whether the last node of a sibling list is inline. -/
def endsInline (nodes : List Node) : Bool := Node.isInlineAt nodes (nodes.length - 1)

/-- The blocks of a sibling list behind the nodes `done`, with the inline nodes `open_` that stand in
front of it. -/
def blocksFrom [Surroundings] (done : List Node) (open_ : List Writing) : List Writing → Slugged (List Node)
  | [] => do return done ++ (← line open_)
  | item :: rest =>
    if item.node.isInline then blocksFrom done (open_ ++ [item]) rest
    else do
      let done := done ++ (← line open_)
      let nodes ← item.block (endsInline done)
      blocksFrom (done ++ nodes) [] rest

/-- The blocks of a sibling list. Inline nodes in a row are one line. -/
def blocks [Surroundings] (items : List Writing) : Slugged (List Node) := blocksFrom [] [] items

/-- An attribute that is written only when there is something in it. -/
def insertSpoken (attrs : Attrs) (key : String) (value : Option String) : Attrs :=
  match value with
  | none => attrs
  | some s => if s = "" then attrs else attrs.insert key (.str s)

/-- What stands in the place of a node that is not known. -/
def unknownText (kind : String) : Node := .text ("Unknown node: " ++ kind)

/-- A code block with its source text. -/
def codeBlock (info : CodeFence.Info) (code : String) : Node :=
  let attrs := insertSpoken [] "language" info.language
  let attrs := insertSpoken attrs "filename" info.filename
  let attrs := insertSpoken attrs "meta" info.meta?
  .element "pre" (attrs.insert "code" (.str code))
    [.element "code" [("__ignoreMap", .str "")] [.text code]]

/-- Whether a value says something: it is not `null`, not `false` and not empty. -/
def isSpoken : Value → Bool
  | .null | .bool false => false
  | .str s => s ≠ ""
  | _ => true

def imageAttrs (props : Attrs) : Attrs := props.filter fun entry => isSpoken entry.2

/-- The attributes of a video in markup. A flag is written only when it is set. -/
def videoAttrs (props : Attrs) : Attrs :=
  props.filter fun (key, value) =>
    if key ∈ Reading.videoFlags then (value.asBool?).getD false else isSpoken value

/-- A node among blocks. -/
def blockOf [Surroundings] (node : DocNode) (items : List Writing) (followsInline : Bool) : Slugged (List Node) :=
  match node with
  | .frontmatter _ _ _ => return []
  | .paragraph synthetic _ => do
    let content ← line items
    return if synthetic && !followsInline then content else [.element "p" [] content]
  | .heading level _ _ => do
    let content ← line items
    let id ← (fun registry => registry.issue (Node.textOf content) : Slugged String)
    return [.element ("h" ++ toString level) [("id", .str id)] content]
  | .bulletList _ => do return [.element "ul" [] (← blocks items)]
  | .orderedList start _ => do
    let attrs := if start = 1 then [] else [("start", .num (.int start))]
    return [.element "ol" attrs (← blocks items)]
  | .listItem _ => do return [.element "li" [] (← blocks items)]
  | .blockquote _ => do return [.element "blockquote" [] (← blocks items)]
  | .horizontalRule => return [.element "hr" [] []]
  | .codeBlock info code children =>
    return [codeBlock info (code.getD (DocNode.textOf children))]
  | .element tag props _ => do return [.element tag props (← blocks items)]
  | .slot name props synthetic _ => do
    let content ← blocks items
    if synthetic then return content
    return [.element "template" (Attrs.insertAll [("v-slot:" ++ name, .str "")] props) content]
  | .comment content => return [.comment content]
  | .unknown kind _ _ => return [.element "p" [] [unknownText kind]]
  | .hardBreak _ | .text _ _ | .inlineElement _ _ _ _ | .image _ _ | .video _ _
  | .link _ _ _ _ _ _ | .spanStyle _ _ _ _ _ | .binding _ _ _ | .emoji _ _ _ => return []

/-- A node inside a line of text. A block there carries no marks. -/
def inlineOf [Surroundings] (node : DocNode) (items : List Writing) : Slugged (List MarkedNode) :=
  match node with
  | .text content marks => return [⟨marks, .text content⟩]
  | .emoji name _ marks => return [⟨marks, .text (":" ++ name ++ ":")⟩]
  | .hardBreak marks => return [⟨marks, .element "br" [] []⟩]
  | .image props marks => return [⟨marks, .element "img" (imageAttrs props) []⟩]
  | .video props marks => return [⟨marks, .element "video" (videoAttrs props) []⟩]
  | .link href target rel props _ marks => do
    let attrs := insertSpoken (insertSpoken [("href", .str href)] "target" target) "rel" rel
    let content ← line items
    return [⟨marks, .element "a" (LinkPolicy.markupAttrs (attrs.insertAll props)) content⟩]
  | .spanStyle style class_ props _ marks => do
    let attrs := insertSpoken (insertSpoken props "style" style) "class" class_
    return [⟨marks, .element "span" attrs (← line items)⟩]
  | .binding value default marks =>
    let attrs := insertSpoken [] "value" value
    let attrs := match default with
      | none => attrs
      | some v => attrs.insert "defaultValue" v
    return [⟨marks, .element "binding" attrs []⟩]
  | .inlineElement tag props _ marks => do return [⟨marks, .element tag props (← line items)⟩]
  | .comment content => return [⟨[], .comment content⟩]
  | .unknown kind _ _ => return [⟨[], unknownText kind⟩]
  | block => do return (← blockOf block items false).map (⟨[], ·⟩)

/-- The ways of writing a node, given those of its children. -/
def ofNode [Surroundings] (node : DocNode) (items : List Writing) : Writing :=
  ⟨node, blockOf node items, inlineOf node items⟩

end Writing

namespace DocNode

def writing [Surroundings] (node : DocNode) : Writing := node.fold Writing.ofNode

end DocNode

namespace Doc

/-- The markup tree of a document. Synthetic paragraphs and slots are taken out, marks become elements, and
headings get new slugs in document order. The frontmatter of the tree is what the author wrote. -/
def toTree [Surroundings] (doc : Doc) : Tree :=
  let (nodes, _) := (Writing.blocks (doc.content.map DocNode.writing)).run .empty
  match doc.frontmatter? with
  | none => .ofNodes nodes
  | some ⟨data, none, metadata⟩ => ⟨nodes, .obj data, metadata⟩
  | some ⟨_, some error, metadata⟩ => ⟨nodes, error.raw, metadata⟩

end Doc

end ComponentMarkdown
