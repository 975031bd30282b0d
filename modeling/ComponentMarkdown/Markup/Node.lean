import ComponentMarkdown.Attrs

namespace ComponentMarkdown

/-- A node of the markup tree. Elements are told apart by their tag only; a tag that stands for nothing in
markdown names a component. -/
inductive Node where
  | text (content : String)
  | element (tag : String) (attrs : Attrs) (children : List Node)
  | comment (content : String)
deriving Repr, Inhabited

/-- A whole document: its top nodes and its frontmatter. The frontmatter is an object, or the text of
a block that is no object, kept as it stands. -/
structure Tree where
  nodes : List Node
  frontmatter : Value
  metadata : Attrs
deriving Repr, Inhabited

namespace Tree

/-- A tree without frontmatter. -/
def ofNodes (nodes : List Node) : Tree := ⟨nodes, .obj [], []⟩

/-- The frontmatter as a map, if it is one. -/
def frontmatterMap? (tree : Tree) : Option Attrs := tree.frontmatter.asObject?

end Tree

mutual

/-- The text of the leaves, one after the other. Style sheets and comments have none. -/
def Node.textContent : Node → String
  | .text content => content
  | .element tag _ children => if tag = "style" then "" else Node.textOf children
  | .comment _ => ""

/-- The text of the leaves of a list of nodes. -/
def Node.textOf : List Node → String
  | [] => ""
  | node :: rest => node.textContent ++ Node.textOf rest

end

namespace Node

def isText : Node → Bool
  | .text _ => true
  | _ => false

/-- The tag of an element. -/
def tag? : Node → Option String
  | .element tag _ _ => some tag
  | _ => none

/-- The name after the mark of a slot attribute, `v-slot:name` or `#name`. -/
def slotKey? (key : String) : Option String :=
  let name := match key.toList with
    | 'v' :: '-' :: 's' :: 'l' :: 'o' :: 't' :: ':' :: name => name
    | '#' :: name => name
    | _ => []
  if name.isEmpty then none else some (String.ofList name)

/-- The slot that a `template` element fills: the name in the first of its attributes that is a slot
attribute. -/
def slotName? : Node → Option String
  | .element tag attrs _ => if tag = "template" then attrs.keys.findSome? slotKey? else none
  | _ => none

end Node

end ComponentMarkdown
