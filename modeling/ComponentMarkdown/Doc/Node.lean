import ComponentMarkdown.Doc.Mark
import ComponentMarkdown.Markup.CodeFence

namespace ComponentMarkdown

/-- Why a document has no frontmatter map, with what it has in its place. -/
structure FrontmatterError where
  message : String
  raw : Value
deriving Repr, Inhabited

/-- A node of the editor's document. Formatting is a list of marks on the nodes inside a line of text. Paragraphs
and slots that only the editor needs, and that have no element in the markup, are synthetic. -/
inductive DocNode where
  | frontmatter (data : Attrs) (error : Option FrontmatterError) (metadata : Attrs)
  | paragraph (synthetic : Bool) (children : List DocNode)
  | heading (level : Nat) (id : String) (children : List DocNode)
  | bulletList (children : List DocNode)
  | orderedList (start : Nat) (children : List DocNode)
  | listItem (children : List DocNode)
  | blockquote (children : List DocNode)
  | horizontalRule
  | hardBreak (marks : List Mark)
  | text (content : String) (marks : List Mark)
  | element (tag : String) (props : Attrs) (children : List DocNode)
  | inlineElement (tag : String) (props : Attrs) (children : List DocNode) (marks : List Mark)
  | slot (name : String) (props : Attrs) (synthetic : Bool) (children : List DocNode)
  | codeBlock (info : CodeFence.Info) (code : Option String) (children : List DocNode)
  | image (props : Attrs) (marks : List Mark)
  | video (props : Attrs) (marks : List Mark)
  | link (href : String) (target rel : Option String) (props : Attrs) (children : List DocNode)
      (marks : List Mark)
  | spanStyle (style class_ : Option String) (props : Attrs) (children : List DocNode)
      (marks : List Mark)
  | binding (value : Option String) (default : Option Value) (marks : List Mark)
  | comment (content : String)
  | emoji (name glyph : String) (marks : List Mark)
  | unknown (kind : String) (attrs : Attrs) (children : List DocNode)
deriving Repr, Inhabited

/-- The editor's document. -/
structure Doc where
  content : List DocNode
deriving Repr, Inhabited

namespace DocNode

/-- The name of a node's type in the wire format. -/
def typeName : DocNode → String
  | frontmatter .. => "frontmatter"
  | paragraph .. => "paragraph"
  | heading .. => "heading"
  | bulletList .. => "bulletList"
  | orderedList .. => "orderedList"
  | listItem .. => "listItem"
  | blockquote .. => "blockquote"
  | horizontalRule => "horizontalRule"
  | hardBreak .. => "hardBreak"
  | text .. => "text"
  | element .. => "element"
  | inlineElement .. => "inlineElement"
  | slot .. => "slot"
  | codeBlock .. => "codeBlock"
  | image .. => "image"
  | video .. => "video"
  | link .. => "link"
  | spanStyle .. => "spanStyle"
  | binding .. => "binding"
  | comment .. => "comment"
  | emoji .. => "emoji"
  | unknown kind .. => kind

/-- Whether a node stands inside a line of text. -/
def isInline : DocNode → Bool
  | text .. | hardBreak .. | inlineElement .. | image .. | video .. | link .. | spanStyle ..
  | binding .. | emoji .. => true
  | _ => false

def children : DocNode → List DocNode
  | paragraph _ children
  | heading _ _ children
  | bulletList children
  | orderedList _ children
  | listItem children
  | blockquote children
  | element _ _ children
  | inlineElement _ _ children _
  | slot _ _ _ children
  | codeBlock _ _ children
  | link _ _ _ _ children _
  | spanStyle _ _ _ children _
  | unknown _ _ children => children
  | _ => []

/-- The marks on a node, the innermost first. Only nodes inside a line of text have any. -/
def marks : DocNode → List Mark
  | text _ marks
  | hardBreak marks
  | inlineElement _ _ _ marks
  | image _ marks
  | video _ marks
  | link _ _ _ _ _ marks
  | spanStyle _ _ _ _ marks
  | binding _ _ marks
  | emoji _ _ marks => marks
  | _ => []

end DocNode

mutual

/-- Combines what `f` makes of the children of a node. -/
def DocNode.fold {α : Type} (f : DocNode → List α → α) : DocNode → α
  | .paragraph synthetic children => f (.paragraph synthetic children) (DocNode.foldList f children)
  | .heading level id children => f (.heading level id children) (DocNode.foldList f children)
  | .bulletList children => f (.bulletList children) (DocNode.foldList f children)
  | .orderedList start children => f (.orderedList start children) (DocNode.foldList f children)
  | .listItem children => f (.listItem children) (DocNode.foldList f children)
  | .blockquote children => f (.blockquote children) (DocNode.foldList f children)
  | .element tag props children => f (.element tag props children) (DocNode.foldList f children)
  | .inlineElement tag props children marks =>
    f (.inlineElement tag props children marks) (DocNode.foldList f children)
  | .slot name props synthetic children =>
    f (.slot name props synthetic children) (DocNode.foldList f children)
  | .codeBlock info code children => f (.codeBlock info code children) (DocNode.foldList f children)
  | .link href target rel props children marks =>
    f (.link href target rel props children marks) (DocNode.foldList f children)
  | .spanStyle style class_ props children marks =>
    f (.spanStyle style class_ props children marks) (DocNode.foldList f children)
  | .unknown kind attrs children => f (.unknown kind attrs children) (DocNode.foldList f children)
  | .frontmatter data error metadata => f (.frontmatter data error metadata) []
  | .horizontalRule => f .horizontalRule []
  | .hardBreak marks => f (.hardBreak marks) []
  | .text content marks => f (.text content marks) []
  | .image props marks => f (.image props marks) []
  | .video props marks => f (.video props marks) []
  | .binding value default marks => f (.binding value default marks) []
  | .comment content => f (.comment content) []
  | .emoji name glyph marks => f (.emoji name glyph marks) []

def DocNode.foldList {α : Type} (f : DocNode → List α → α) : List DocNode → List α
  | [] => []
  | node :: rest => node.fold f :: DocNode.foldList f rest

end

namespace DocNode

theorem foldList_eq_map {α : Type} (f : DocNode → List α → α) (nodes : List DocNode) :
    foldList f nodes = nodes.map (fold f) := by
  induction nodes with
  | nil => simp only [foldList, List.map_nil]
  | cons node rest ih => simp only [foldList, List.map_cons, ih]

theorem fold_eq {α : Type} (f : DocNode → List α → α) (node : DocNode) :
    node.fold f = f node (node.children.map (fold f)) := by
  cases node <;> simp only [fold, children, foldList_eq_map, List.map_nil]

/-- The text that a node and its children's texts make. An emoji counts as its glyph. -/
def textWith : DocNode → List String → String
  | text content _, _ => content
  | emoji _ glyph _, _ => glyph
  | _, texts => String.join texts

/-- The text of the leaves, one after the other. -/
def textContent (node : DocNode) : String := node.fold textWith

/-- The text of the leaves of a list of nodes. -/
def textOf (nodes : List DocNode) : String := String.join (nodes.map textContent)

end DocNode

namespace Doc

/-- The parts of a frontmatter node. -/
structure Frontmatter where
  data : Attrs
  error : Option FrontmatterError
  metadata : Attrs
deriving Repr, Inhabited

/-- The frontmatter node of a document, the first if there are several. -/
def frontmatter? (doc : Doc) : Option Frontmatter :=
  doc.content.findSome? fun
    | .frontmatter data error metadata => some ⟨data, error, metadata⟩
    | _ => none

end Doc

end ComponentMarkdown
