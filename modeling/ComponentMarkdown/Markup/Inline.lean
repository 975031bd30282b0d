import ComponentMarkdown.Markup.AttributeReader
import ComponentMarkdown.Markup.Node
import ComponentMarkdown.Text.Alphanumeric

namespace ComponentMarkdown.Inline

/-- A character of text, or a sibling that is no text. -/
inductive Piece where
  | char (c : Char)
  | node (n : Node)
deriving Repr, Inhabited

namespace Piece

/-- The character that a piece counts as when constructs are looked for. -/
def toChar : Piece → Char
  | .char c => c
  | .node _ => '\ufffc'

def isNode : Piece → Bool
  | .char _ => false
  | .node _ => true

def isElement : Piece → Bool
  | .node (.element _ _ _) => true
  | _ => false

end Piece

/-- The pieces of a sibling list. -/
def pieces (nodes : List Node) : List Piece :=
  nodes.flatMap fun
    | .text content => content.toList.map .char
    | other => [.node other]

/-- The characters of pieces. -/
def chars (pieces : List Piece) : List Char := pieces.map Piece.toChar

/-- The sibling list of pieces: characters in a row are one text. `text` holds the characters of the
text that is open. -/
def nodesFrom (text : List Char) : List Piece → List Node
  | [] => if text.isEmpty then [] else [.text (String.ofList text)]
  | .char c :: rest => nodesFrom (text ++ [c]) rest
  | .node n :: rest =>
    (if text.isEmpty then [] else [.text (String.ofList text)]) ++ n :: nodesFrom [] rest

/-- The sibling list of pieces. -/
def nodes (pieces : List Piece) : List Node := nodesFrom [] pieces

/-- Adds attributes to an element: classes are joined, anything else is replaced. -/
def mergeAttrs (target added : Attrs) : Attrs :=
  added.foldl (fun target (key, value) =>
    match key, target.getString? "class", value with
    | "class", some existing, .str more =>
      target.insert "class" (.str (existing ++ " " ++ more))
    | key, _, value => target.insert key value) target

/-- Adds attributes to the element at the end of a sibling list. -/
def mergeLast (added : Attrs) (siblings : List Node) : List Node :=
  match siblings.reverse with
  | .element tag attrs children :: before =>
    (Node.element tag (mergeAttrs attrs added) children :: before).reverse
  | _ => siblings

/-- A construct: its tag, its attributes, the pieces of its label, and the number of pieces that it
takes. -/
structure Construct where
  tag : String
  attrs : Attrs
  label : List Piece
  size : Nat

/-- The number of characters up to and including the bracket that closes the first one. A backslash
takes the character behind it out of account. -/
def labelEnd? (depth : Nat) : List Char → Option Nat
  | [] => none
  | ['\\'] => none
  | '\\' :: _ :: rest => (labelEnd? depth rest).map (· + 2)
  | '[' :: rest => (labelEnd? (depth + 1) rest).map (· + 1)
  | ']' :: rest =>
    if depth = 0 then none
    else if depth = 1 then some 1
    else (labelEnd? (depth - 1) rest).map (· + 1)
  | _ :: rest => (labelEnd? depth rest).map (· + 1)

/-- The attributes at the start of pieces, with the number of pieces they take. No node may stand
among them. -/
def attributes? (pieces : List Piece) : Option (Attrs × Nat) := do
  let (block, _) ← AttributeBlock.split? (chars pieces)
  if (pieces.take block.length).any Piece.isNode then none
  let attrs ← (AttributeBlock.read block).toOption
  return (attrs, block.length)

/-- The characters in front of two closing braces. -/
def bindingBody? : List Char → Option (List Char)
  | '\x7d' :: '\x7d' :: _ => some []
  | c :: rest => (bindingBody? rest).map (c :: ·)
  | [] => none

/-- The parts in front of and behind the first double bar. -/
def splitDefault : List Char → List Char × Option (List Char)
  | '|' :: '|' :: rest => ([], some rest)
  | c :: rest =>
    let (value, default) := splitDefault rest
    (c :: value, default)
  | [] => ([], none)

/-- The text between two quotes of a kind. -/
def unquoted? (quote : Char) : List Char → Option (List Char)
  | c :: rest => if c = quote ∧ rest.getLast? = some quote then some rest.dropLast else none
  | [] => none

/-- What the default of a binding stands for. -/
def defaultValue (s : List Char) : Value :=
  match unquoted? '\x27' s, unquoted? '\x22' s, AttributeBlock.integer? s with
  | some inner, _, _ => .str (String.ofList inner)
  | _, some inner, _ => .str (String.ofList inner)
  | _, _, some n => .num (.int n)
  | _, _, _ =>
    if s = "true".toList then .bool true
    else if s = "false".toList then .bool false
    else .str (String.ofList s)

/-- A binding at the start of pieces, on one line and with a value. -/
def binding? (pieces : List Piece) : Option Construct := do
  match chars pieces with
  | '\x7b' :: '\x7b' :: rest =>
    let body ← bindingBody? rest
    let size := body.length + 4
    if (pieces.take size).any Piece.isNode ∨ '\n' ∈ body then none
    let (value, default) := splitDefault body
    let value := Text.trim value
    if value.isEmpty then none
    let attrs : Attrs := [("value", .str (String.ofList value))]
    let attrs := match default with
      | none => attrs
      | some default => attrs.insert "defaultValue" (defaultValue (Text.trim default))
    return ⟨"binding", attrs, [], size⟩
  | _ => none

/-- The characters of a component's name after the first. -/
def isNameChar (c : Char) : Bool := c.isAlphanum || c = '-' || c = '_'

/-- The pieces inside the brackets at the start, with the number of pieces they take. -/
def label? (pieces : List Piece) : Option (List Piece × Nat) :=
  match chars pieces with
  | '[' :: _ => (labelEnd? 0 (chars pieces)).map fun size => ((pieces.take (size - 1)).drop 1, size)
  | _ => none

/-- An inline component at the start of pieces: a name with a label, attributes or both. -/
def component? (pieces : List Piece) : Option Construct :=
  match chars pieces with
  | ':' :: rest =>
    let name := rest.takeWhile isNameChar
    if !name.head?.any Char.isAlpha then none
    else
      let after := pieces.drop (name.length + 1)
      let label := label? after
      let labelSize := (label.map Prod.snd).getD 0
      let attrs := attributes? (after.drop labelSize)
      if label.isNone ∧ attrs.isNone then none
      else
        some
          { tag := String.ofList name
            attrs := (attrs.map Prod.fst).getD []
            label := (label.map Prod.fst).getD []
            size := name.length + 1 + labelSize + (attrs.map Prod.snd).getD 0 }
  | _ => none

/-- A span at the start of pieces: a label with attributes. -/
def span? (pieces : List Piece) : Option Construct := do
  let (label, labelSize) ← label? pieces
  let (attrs, size) ← attributes? (pieces.drop labelSize)
  return ⟨"span", attrs, label, labelSize + size⟩

/-- The construct at the start of pieces, given the piece in front. A component does not start inside
a word. -/
def construct? (before : Option Piece) (pieces : List Piece) : Option Construct :=
  match chars (pieces.take 2) with
  | '\x7b' :: '\x7b' :: _ => binding? pieces
  | ':' :: _ =>
    if before.any (fun piece => Text.isAlphanumeric piece.toChar) then none else component? pieces
  | '[' :: _ => span? pieces
  | _ => none

/-- The attributes at the start of pieces that belong to the element in front. -/
def trailing? (before : Option Piece) (pieces : List Piece) : Option (Attrs × Nat) :=
  if chars (pieces.take 2) = ['\x7b', '\x7b'] ∨ !before.any Piece.isElement then none
  else attributes? pieces

/-- Builds the nodes of pieces, with `plain` the pieces since the last construct and `before` the piece
in front of the ones that are left. The first argument bounds the number of steps. -/
def build : Nat → List Piece → Option Piece → List Piece → List Node
  | 0, plain, _, rest => nodes (plain ++ rest)
  | _ + 1, plain, _, [] => nodes plain
  | fuel + 1, plain, before, piece :: rest =>
    match trailing? before (piece :: rest) with
    | some (attrs, size) =>
      mergeLast attrs (nodes plain)
        ++ build fuel [] ((piece :: rest)[size - 1]?) ((piece :: rest).drop size)
    | none =>
      match construct? before (piece :: rest) with
      | some found =>
        nodes plain
          ++ Node.element found.tag found.attrs (build fuel [] none found.label)
          :: build fuel [] ((piece :: rest)[found.size - 1]?) ((piece :: rest).drop found.size)
      | none => build fuel (plain ++ [piece]) (some piece) rest

/-- Reads the component syntax in a sibling list in which markdown has been parsed, so that a label can hold
elements: bindings, inline components, spans, and attributes right behind an element. -/
def apply (siblings : List Node) : List Node :=
  let all := pieces siblings
  build (all.length + 1) [] none all

end ComponentMarkdown.Inline
