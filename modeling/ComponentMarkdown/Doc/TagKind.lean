import ComponentMarkdown.Doc.Mark

namespace ComponentMarkdown

/-- The meaning of a tag in the editor. Tags that stand for nothing else name components. -/
inductive TagKind where
  | paragraph
  | heading (level : Nat)
  | bulletList
  | orderedList
  | listItem
  | blockquote
  | horizontalRule
  | lineBreak
  | codeBlock
  | image
  | video
  | template
  | span
  | binding
  | mark (kind : MarkKind)
  | html
  | style
  | component
deriving DecidableEq, Repr, Inhabited

namespace TagKind

/-- The tags with a meaning of their own, marks excepted. -/
def table : List (String × TagKind) :=
  [("p", paragraph), ("h1", heading 1), ("h2", heading 2), ("h3", heading 3), ("h4", heading 4),
    ("h5", heading 5), ("h6", heading 6), ("ul", bulletList), ("ol", orderedList),
    ("li", listItem), ("blockquote", blockquote), ("hr", horizontalRule), ("br", lineBreak),
    ("pre", codeBlock), ("img", image), ("video", video), ("template", template), ("span", span),
    ("binding", binding), ("html", html), ("style", style)]

def ofTag (tag : String) : TagKind :=
  match MarkKind.ofTag? tag with
  | some kind => mark kind
  | none => (table.lookup tag).getD component

end TagKind

end ComponentMarkdown
