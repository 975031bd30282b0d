namespace ComponentMarkdown.CommonMark

/-- Inline content. -/
inductive Inline where
  | text (content : List Char)
  | code (content : List Char)
  | html (content : List Char)
  | softBreak
  | hardBreak
  | emphasis (content : List Inline)
  | strong (content : List Inline)
  | strikethrough (content : List Inline)
  | link (destination title : List Char) (content : List Inline)
  | image (destination title : List Char) (content : List Inline)
deriving Repr, Inhabited

/-- A container that lines may stand in. A list knows the character of its markers, the number of its
first item, and whether no empty line stands between its parts; an item knows the column of its
text. -/
inductive Container where
  | quote
  | list (marker : Char) (number : Nat) (tight : Bool)
  | item (indent : Nat)
deriving DecidableEq, Repr, Inhabited

/-- A line of text: what stands in front of it, and its characters with the line end. -/
structure TextLine where
  margin : List Char
  content : List Char
deriving DecidableEq, Repr, Inhabited

/-- The text of a paragraph or a heading as it stands in the document: the containers around it,
outermost first, its lines, and what else belongs to the block behind them. The text of a heading on a
single line is only so many characters long. -/
structure Passage where
  containers : List Container
  lines : List TextLine
  tail : List Char
  limit : Option Nat
deriving DecidableEq, Repr, Inhabited

/-- A block. An ordered list has the number of its first item, and the children of a list are items. The text of
its lines is still unread. -/
inductive Block where
  | paragraph (text : Passage)
  | heading (level : Nat) (text : Passage)
  | rule
  | code (info : List Char) (content : List Char)
  | html (content : List Char)
  | quote (blocks : List Block)
  | list (start : Option Nat) (tight : Bool) (items : List Block)
  | item (blocks : List Block)
deriving Repr, Inhabited

/-- The target of a link: where it leads and what it is called. -/
structure Target where
  destination : List Char
  title : List Char
deriving DecidableEq, Repr, Inhabited

/-- The link targets that a document defines, by label. -/
abbrev Definitions := List (List Char × Target)

/-- Blanks within a line. -/
def isLineBlank (c : Char) : Bool := c = ' ' || c = '\t' || c = '\x0b' || c = '\x0c'

/-- Blanks and line ends. -/
def isSpace (c : Char) : Bool := isLineBlank c || c = '\n' || c = '\r'

end ComponentMarkdown.CommonMark
