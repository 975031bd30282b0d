import ComponentMarkdown.Doc.Node
import ComponentMarkdown.Doc.TagKind
import ComponentMarkdown.LinkPolicy
import ComponentMarkdown.Markup.Placement
import ComponentMarkdown.Shortcode
import ComponentMarkdown.Slug
import ComponentMarkdown.Text.Blank

namespace ComponentMarkdown

/-- Computations that issue slugs for headings. -/
abbrev Slugged := StateM SlugRegistry

/-- A markup node with the two ways in which its parent may need it read: as a block and inside a line. Each
element combines the readings of its children. -/
structure Reading where
  node : Node
  /-- As a block. A style sheet is none. -/
  block : Slugged (Option DocNode)
  /-- Inside a line of text, under the marks of the elements around it. -/
  inline : List Mark → Slugged (List DocNode)

namespace Reading

/-- Joins neighbouring texts with equal marks. -/
def joinTexts : List DocNode → List DocNode
  | [] => []
  | .text content marks :: rest =>
    match joinTexts rest with
    | .text next marks' :: tail =>
      if Mark.sameList marks marks' then .text (content ++ next) marks :: tail
      else .text content marks :: .text next marks' :: tail
    | tail => .text content marks :: tail
  | node :: rest => node :: joinTexts rest

/-- The nodes of a list inside a line of text. -/
def inlines (marks : List Mark) : List Reading → Slugged (List DocNode)
  | [] => return []
  | item :: rest => do
    let nodes ← item.inline marks
    let tail ← inlines marks rest
    return nodes ++ tail

/-- The content of a node that holds a line of text. -/
def line (items : List Reading) : Slugged (List DocNode) := do return joinTexts (← inlines [] items)

def isBlankText : Node → Bool
  | .text content => Text.allBlank content.toList
  | _ => false

/-- The synthetic paragraph around inline nodes that stand among blocks. Blanks between blocks are
layout and get none. -/
def paragraph (items : List Reading) : Slugged (List DocNode) :=
  if items.all (fun item => isBlankText item.node) then return []
  else do return [.paragraph true (← line items)]

/-- The blocks of a sibling list, with the inline nodes `open_` that stand in front of it and the node
`before` it. -/
def blocksFrom (open_ : List Reading) (before : Option Node) :
    List Reading → Slugged (List DocNode)
  | [] => paragraph open_
  | item :: rest =>
    if Node.isInlineBetween before item.node (rest.head?.map Reading.node) then
      blocksFrom (open_ ++ [item]) (some item.node) rest
    else do
      let first ← paragraph open_
      let block ← item.block
      let tail ← blocksFrom [] (some item.node) rest
      return first ++ block.toList ++ tail

/-- The blocks of a sibling list. -/
def blocks (items : List Reading) : Slugged (List DocNode) := blocksFrom [] none items

/-- What a child of a list becomes: an item is read, anything else is put in one, and blanks are
dropped. -/
def listItem (item : Reading) : Slugged (List DocNode) :=
  if item.node.tag? = some "li" then do return (← item.block).toList
  else if isBlankText item.node then return []
  else do return [.listItem (← blocks [item])]

/-- The items of a list. -/
def listItems : List Reading → Slugged (List DocNode)
  | [] => return []
  | item :: rest => do
    let first ← listItem item
    let tail ← listItems rest
    return first ++ tail

def fillsSlot (item : Reading) : Bool := item.node.slotName?.isSome

/-- The blocks of items of which each is one. -/
def eachBlock : List Reading → Slugged (List DocNode)
  | [] => return []
  | item :: rest => do
    let block ← item.block
    let tail ← eachBlock rest
    return block.toList ++ tail

/-- The slots of a component. The children outside of slots are gathered in one synthetic slot, in the
place of the first of them, and are read last. -/
def slots (items : List Reading) : Slugged (List DocNode) := do
  let named ← eachBlock (items.filter fillsSlot)
  let bare := items.filter (!fillsSlot ·)
  if bare.isEmpty then return named
  let content ← blocks bare
  let place := (items.takeWhile fillsSlot).length
  return named.take place ++ .slot "default" [] true content :: named.drop place

def isSlotAttr (key : String) : Bool :=
  Text.startsWith "v-slot:".toList key.toList || Text.startsWith ['#'] key.toList

/-- The slot that a template element fills. -/
def slot (tag : String) (attrs : Attrs) (items : List Reading) : Slugged DocNode := do
  let name := ((Node.element tag attrs []).slotName?).getD "default"
  return .slot name (attrs.filter (fun entry => !isSlotAttr entry.1)) false (← blocks items)

/-- An attribute of a code block, if it is a string that says something. -/
def spoken? (attrs : Attrs) (key : String) : Option String :=
  (attrs.getString? key).filter (· ≠ "")

/-- A code block. Its attribute `code` counts before its content, which may be decorated. -/
def codeBlock (attrs : Attrs) (content : String) : DocNode :=
  let code := (attrs.getString? "code").getD content
  .codeBlock ⟨spoken? attrs "language", spoken? attrs "filename", spoken? attrs "meta"⟩ (some code)
    (if code = "" then [] else [.text code []])

/-- The attributes of a video that are either there or not. -/
def videoFlags : List String := ["controls", "autoplay", "loop", "muted"]

/-- Whether a flag is set. -/
def flagValue : Value → Bool
  | .bool value => value
  | .str s => s ≠ "false"
  | .null => false
  | _ => true

/-- The attributes of a video, its flags as booleans. -/
def videoProps (attrs : Attrs) : Attrs :=
  attrs.map fun (key, value) =>
    (key, if key ∈ videoFlags then .bool (flagValue value) else value)

/-- Takes a string out of attributes. A value of another kind stays, at the end. -/
def takeString (attrs : Attrs) (key : String) : Option String × Attrs :=
  match attrs.get? key with
  | none => (none, attrs)
  | some (.str s) => (some s, attrs.erase key)
  | some value => (none, (attrs.erase key).insert key value)

/-- A text that runs from left to right, cut around the shortcodes that are known. -/
def textNodes [Surroundings] (emoji : Bool) (content : String) (marks : List Mark) : List DocNode :=
  if content = "" then []
  else if emoji then
    (Shortcode.split content.toList).map fun
      | .plain text => .text (String.ofList text) marks
      | .emoji name glyph => .emoji name glyph marks
  else [.text content marks]

/-- Code inside a line. Of its attributes only the language is kept. -/
def codeText (attrs : Attrs) (content : String) (marks : List Mark) : List DocNode :=
  if content = "" then []
  else
    let kept := match attrs.get? "language" with
      | some language => [("language", language)]
      | none => []
    [.text content (Mark.compose marks ⟨.code, kept⟩)]

/-- A link with content that marks cannot express. -/
def linkNode [Surroundings] (attrs : Attrs) (items : List Reading) (marks : List Mark) : Slugged DocNode := do
  let (href, props) := takeString (LinkPolicy.editorAttrs attrs) "href"
  let (target, props) := takeString props "target"
  let (rel, props) := takeString props "rel"
  return .link (href.getD "") target rel props (← line items) marks

end Reading

mutual

/-- Whether a node is text, or formatting around text. -/
def Node.isMarkedText : Node → Bool
  | .text _ => true
  | .comment _ => false
  | .element tag _ children =>
    match MarkKind.ofTag? tag with
    | none | some .link => false
    | some _ => Node.areMarkedText children

def Node.areMarkedText : List Node → Bool
  | [] => true
  | node :: rest => node.isMarkedText && Node.areMarkedText rest

end

namespace Reading

/-- An element with a mark, inside a line. -/
def marked [Surroundings] (kind : MarkKind) (attrs : Attrs) (items : List Reading) (marks : List Mark) :
    Slugged (List DocNode) :=
  let children := items.map Reading.node
  match kind with
  | .code => return codeText attrs (Node.textOf children) marks
  | .link =>
    if Node.areMarkedText children then
      inlines (Mark.compose marks ⟨.link, LinkPolicy.editorAttrs attrs⟩) items
    else do return [← linkNode attrs items marks]
  | kind => inlines (Mark.compose marks ⟨kind, attrs⟩) items

/-- An element inside a line, of a tag that has a meaning there. -/
def inlineElement [Surroundings] (tag : String) (attrs : Attrs) (items : List Reading) (marks : List Mark) :
    Slugged (List DocNode) :=
  match TagKind.ofTag tag with
  | .mark kind => marked kind attrs items marks
  | .lineBreak => return [.hardBreak marks]
  | .image => return [.image attrs marks]
  | .video => return [.video (videoProps attrs) marks]
  | .span => do
    let (style, props) := takeString attrs "style"
    let (class_, props) := takeString props "class"
    return [.spanStyle style class_ props (← line items) marks]
  | .binding => return [.binding (attrs.getString? "value") (attrs.get? "defaultValue") marks]
  | .component | .template | .html => do
    return [.inlineElement tag attrs (← line items) marks]
  | _ => return []

/-- An element as a block. One that belongs inside a line gets a synthetic paragraph. -/
def blockElement [Surroundings] (tag : String) (attrs : Attrs) (items : List Reading) :
    Slugged (Option DocNode) := do
  let content := Node.textOf (items.map Reading.node)
  match TagKind.ofTag tag with
  | .paragraph => return some (.paragraph false (← line items))
  | .heading level => do
    let id ← (fun registry => registry.issue content : Slugged String)
    return some (.heading level id (← line items))
  | .bulletList => return some (.bulletList (← listItems items))
  | .orderedList =>
    let start := ((attrs.get? "start").bind Value.asNat?).getD 1
    return some (.orderedList start (← listItems items))
  | .listItem => return some (.listItem (← blocks items))
  | .blockquote => return some (.blockquote (← blocks items))
  | .horizontalRule => return some .horizontalRule
  | .codeBlock => return some (codeBlock attrs content)
  | .template => return some (← slot tag attrs items)
  | .html => return some (.element tag attrs [.text content []])
  | .style => return none
  | .component => return some (.element tag attrs (← slots items))
  | .lineBreak | .image | .video | .span | .binding | .mark _ =>
    return some (.paragraph true (joinTexts (← inlineElement tag attrs items [])))

/-- Whether the tag of an element stands for a block also inside a line. -/
def isBlockTag (tag : String) : Bool :=
  match TagKind.ofTag tag with
  | .paragraph | .heading _ | .bulletList | .orderedList | .listItem | .blockquote
  | .horizontalRule | .codeBlock => true
  | _ => false

/-- The readings of an element, given those of its children. -/
def ofElement [Surroundings] (tag : String) (attrs : Attrs) (items : List Reading) : Reading where
  node := .element tag attrs (items.map Reading.node)
  block := blockElement tag attrs items
  inline marks :=
    if isBlockTag tag then do return (← blockElement tag attrs items).toList
    else inlineElement tag attrs items marks

end Reading

mutual

/-- The readings of a node. Shortcodes are replaced if `emoji` is set. -/
def Node.reading [Surroundings] (emoji : Bool) : Node → Reading
  | .text content =>
    ⟨.text content, pure (some (.text content [])),
      fun marks => pure (Reading.textNodes emoji content marks)⟩
  | .comment content =>
    ⟨.comment content, pure (some (.comment content)), fun _ => pure [.comment content]⟩
  | .element tag attrs children => .ofElement tag attrs (Node.readings emoji children)

def Node.readings [Surroundings] (emoji : Bool) : List Node → List Reading
  | [] => []
  | node :: rest => node.reading emoji :: Node.readings emoji rest

end

namespace Doc

/-- The frontmatter node of a tree. Frontmatter that is no map is kept as it is, with what is wrong
about it. -/
def frontmatterNode (tree : Tree) : DocNode :=
  match tree.frontmatter with
  | .obj data => .frontmatter data none tree.metadata
  | .null => .frontmatter [] none tree.metadata
  | raw =>
    .frontmatter []
      (some ⟨"Frontmatter must be a key-value mapping, found " ++ raw.kind, raw⟩) tree.metadata

/-- The document of a tree. Elements that only format text dissolve into marks, and every other element becomes a
typed node. Shortcodes are replaced if `emoji` is set. -/
def ofTree [Surroundings] (tree : Tree) (emoji : Bool) : Doc :=
  let (content, _) := (Reading.blocks (Node.readings emoji tree.nodes)).run .empty
  ⟨frontmatterNode tree :: content⟩

end Doc

end ComponentMarkdown
