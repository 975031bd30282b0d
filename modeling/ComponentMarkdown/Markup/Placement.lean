import ComponentMarkdown.Markup.Node

namespace ComponentMarkdown

/-- Inside a line of text, or on lines of its own. -/
inductive Placement where
  | inline
  | block
deriving DecidableEq, Repr, Inhabited

namespace Placement

/-- The tags that always sit inside a line of text. -/
def inlineTags : List String :=
  ["strong", "em", "del", "code", "a", "img", "span", "binding", "br"]

/-- The tags that always stand on lines of their own. -/
def blockTags : List String :=
  ["p", "h1", "h2", "h3", "h4", "h5", "h6", "ul", "ol", "li", "blockquote", "hr", "pre",
    "template", "style", "html"]

/-- The place that a tag has wherever it stands. A component's tag has none. -/
def ofTag? (tag : String) : Option Placement :=
  if tag ∈ inlineTags then some .inline
  else if tag ∈ blockTags then some .block
  else none

end Placement

namespace Node

/-- The place that a node has whatever stands beside it. -/
def fixedPlacement? : Node → Option Placement
  | .text _ => some .inline
  | .comment _ => some .block
  | .element tag _ _ => Placement.ofTag? tag

/-- Whether a node is inline between two neighbours. A component is if one of them is something that always is
inline. -/
def isInlineBetween (before : Option Node) (node : Node) (after : Option Node) : Bool :=
  match node.fixedPlacement? with
  | some place => place = .inline
  | none =>
    before.bind fixedPlacement? = some .inline || after.bind fixedPlacement? = some .inline

/-- Whether the node at an index of a sibling list is inline. There is none beyond the end. -/
def isInlineAt (nodes : List Node) (index : Nat) : Bool :=
  match nodes[index]? with
  | none => false
  | some node =>
    isInlineBetween (if index = 0 then none else nodes[index - 1]?) node nodes[index + 1]?

end Node

end ComponentMarkdown
