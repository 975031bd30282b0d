import ComponentMarkdown.Markup.AttributeReader
import ComponentMarkdown.Markup.Frontmatter
import ComponentMarkdown.Markup.Markdown
import ComponentMarkdown.Markup.Token

namespace ComponentMarkdown

/-- Why a text is no document. -/
inductive ParseError where
  | unclosedComponent (name : String) (line : Nat)
  | invalidAttributes (name : String) (line : Nat) (cause : AttributeError)
deriving DecidableEq, Repr, Inhabited

namespace ParseError

def message : ParseError → String
  | unclosedComponent name line =>
    "Component ::" ++ name ++ " opened at line " ++ toString line ++ " is never closed"
  | invalidAttributes name line cause =>
    "Invalid attributes for ::" ++ name ++ " at line " ++ toString line ++ ": " ++ cause.message

/-- The cause of an error that has one. -/
def cause? : ParseError → Option AttributeError
  | unclosedComponent _ _ => none
  | invalidAttributes _ _ cause => some cause

end ParseError

/-- The content of a document, a component or a slot while it is collected: finished nodes, and the
lines behind them that no component is made of. -/
structure Body where
  nodes : List Node
  lines : List String
deriving Repr, Inhabited

/-- A component that is open, with the line that opened it and the slot that is being filled. -/
structure OpenComponent where
  name : String
  line : Nat
  attrs : Attrs
  children : Body
  slot : Option (String × Body)
deriving Repr, Inhabited

/-- What is left of a list of tokens. -/
abbrev Token.Rest (tokens : List Token) := { rest : List Token // rest.length ≤ tokens.length }

/-- The element that carries the content of a named slot. -/
def Node.slotTemplate (name : String) (content : List Node) : Node :=
  .element "template" [("v-slot:" ++ name, .str "")] content

def Body.empty : Body := ⟨[], []⟩

def Body.addLine (body : Body) (line : String) : Body := { body with lines := body.lines ++ [line] }

namespace OpenComponent

/-- Changes the body that is being collected, the slot's if one has started. -/
def modify (component : OpenComponent) (f : Body → Body) : OpenComponent :=
  match component.slot with
  | some (name, body) => { component with slot := some (name, f body) }
  | none => { component with children := f component.children }

/-- The attributes that a component is opened with. -/
def openAttrs (name : String) (line : Nat) : Option String → Except ParseError Attrs
  | none => .ok []
  | some block =>
    match AttributeBlock.read block.toList with
    | .ok attrs => .ok attrs
    | .error cause => .error (.invalidAttributes name line cause)

/-- A component behind the line that opens it. -/
def start (name : String) (line : Nat) (block : Option String) : Except ParseError OpenComponent :=
  (openAttrs name line block).map fun attrs => ⟨name, line, attrs, .empty, none⟩

end OpenComponent

section Reading

variable (blocks : List Char → List Node)

namespace Body

/-- The nodes of the body. Its last lines are read as one piece. -/
def finish (body : Body) : List Node :=
  match body.lines with
  | [] => body.nodes
  | lines => body.nodes ++ blocks (Text.join ['\n'] (lines.map String.toList))

def addNode (body : Body) (node : Node) : Body := ⟨body.finish blocks ++ [node], []⟩

end Body

namespace OpenComponent

/-- Ends the slot that is being filled. -/
def endSlot (component : OpenComponent) : OpenComponent :=
  match component.slot with
  | some (name, body) =>
    { component with
      children := component.children.addNode blocks (.slotTemplate name (body.finish blocks))
      slot := none }
  | none => component

def startSlot (component : OpenComponent) (name : String) : OpenComponent :=
  { component.endSlot blocks with slot := some (name, .empty) }

/-- The element of a component that ends. -/
def close (component : OpenComponent) : Node :=
  .element component.name component.attrs ((component.endSlot blocks).children.finish blocks)

/-- Reads a component from where it is to the line that closes it. A component that is opened on the way
is read to its end and joins the content. -/
def readRest (component : OpenComponent) (tokens : List Token) :
    Except ParseError (Node × Token.Rest tokens) :=
  match tokens with
  | [] => .error (.unclosedComponent component.name component.line)
  | token :: rest =>
    match token.kind with
    | .markdown => do
      let (node, ⟨left, short⟩) ← readRest (component.modify (·.addLine token.raw)) rest
      return (node, ⟨left, Nat.le_succ_of_le short⟩)
    | .componentOpen _ name block => do
      let opened ← start name token.line block
      let (child, ⟨behind, shorter⟩) ← readRest opened rest
      let (node, ⟨left, short⟩) ← readRest (component.modify (·.addNode blocks child)) behind
      return (node, ⟨left, Nat.le_succ_of_le (Nat.le_trans short shorter)⟩)
    | .slot name => do
      let (node, ⟨left, short⟩) ← readRest (component.startSlot blocks name) rest
      return (node, ⟨left, Nat.le_succ_of_le short⟩)
    | .componentClose _ => .ok (component.close blocks, ⟨rest, Nat.le_succ rest.length⟩)
termination_by tokens.length

end OpenComponent

/-- Reads a document from where it is to its end. Outside components a closing line and a slot mark are
text. -/
def Body.readRest (body : Body) (tokens : List Token) : Except ParseError (List Node) :=
  match tokens with
  | [] => .ok (body.finish blocks)
  | token :: rest =>
    match token.kind with
    | .componentOpen _ name block => do
      let opened ← OpenComponent.start name token.line block
      let (node, ⟨behind, _⟩) ← opened.readRest blocks rest
      readRest (body.addNode blocks node) behind
    | _ => readRest (body.addLine token.raw) rest
termination_by tokens.length

/-- Reads a document. Line numbers count from the line behind the frontmatter block. -/
def Tree.parseWith (source : String) : Except ParseError Tree := do
  let split := Frontmatter.split source
  let nodes ← Body.empty.readRest blocks (Token.tokenize split.body)
  return ⟨nodes, (split.yaml.map Frontmatter.decode).getD (.obj []), []⟩

end Reading

/-- Reads a document whose lines outside of component syntax are markdown. -/
def Tree.parse (source : String) : Except ParseError Tree := parseWith Markdown.parse source

end ComponentMarkdown
