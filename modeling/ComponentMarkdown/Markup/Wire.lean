import ComponentMarkdown.Json.Reader
import ComponentMarkdown.Json.Record
import ComponentMarkdown.Markup.Node

namespace ComponentMarkdown

/-- Why a value is no node or no tree. -/
inductive WireError where
  | unexpectedValue (kind : String)
  | missingTag
  | invalidAttrs (tag : String)
  | invalidComment
  | invalidTree
deriving DecidableEq, Repr, Inhabited

namespace WireError

def message : WireError → String
  | unexpectedValue kind => "Expected a string, an array or an object, found " ++ kind
  | missingTag => "Node array must start with a tag string or null"
  | invalidAttrs tag => "Attributes of <" ++ tag ++ "> must be an object"
  | invalidComment => "Comment node must carry a text payload"
  | invalidTree => "Markup tree must be an object with a \x60nodes\x60 array"

end WireError

mutual

/-- The wire form of a node. An element is an array of its tag, its attributes and its children, a comment is an
array of `null`, an object and a text, and text is a bare string. -/
def Node.toWire : Node → Value
  | .text content => .str content
  | .comment content => .arr [.null, .obj [], .str content]
  | .element tag attrs children => .arr (.str tag :: .obj attrs :: Node.listToWire children)

/-- The wire forms of a list of nodes. -/
def Node.listToWire : List Node → List Value
  | [] => []
  | node :: rest => node.toWire :: Node.listToWire rest

end

mutual

/-- The node of a wire value. -/
def Node.ofWire : Value → Except WireError Node
  | .str content => .ok (.text content)
  | .arr [] => .error .missingTag
  | .arr (.null :: _ :: .str content :: _) => .ok (.comment content)
  | .arr (.null :: _) => .error .invalidComment
  | .arr [.str tag] => .ok (.element tag [] [])
  | .arr (.str tag :: .null :: children) =>
    (Node.listOfWire children).map (.element tag [])
  | .arr (.str tag :: .obj attrs :: children) =>
    (Node.listOfWire children).map (.element tag attrs)
  | .arr (.str tag :: _ :: _) => .error (.invalidAttrs tag)
  | .arr (_ :: _) => .error .missingTag
  | other => .error (.unexpectedValue other.kind)

/-- The nodes of a list of wire values. The first value that is no node decides the error. -/
def Node.listOfWire : List Value → Except WireError (List Node)
  | [] => .ok []
  | v :: rest => do
    let node ← Node.ofWire v
    let nodes ← Node.listOfWire rest
    return node :: nodes

end

namespace Tree

/-- The wire form of a tree. -/
def toWire (tree : Tree) : Value :=
  .obj [("nodes", .arr (Node.listToWire tree.nodes)), ("frontmatter", tree.frontmatter),
    ("meta", .obj tree.metadata)]

/-- The tree of a wire value. A missing frontmatter is an empty object, and metadata that is no
object counts as none. -/
def ofWire : Value → Except WireError Tree
  | .obj fields =>
    match Attrs.get? fields "nodes" with
    | some (.arr items) => do
      let nodes ← Node.listOfWire items
      let metadata := match Attrs.get? fields "meta" with
        | some (.obj entries) => entries
        | _ => []
      return ⟨nodes, (Attrs.get? fields "frontmatter").getD (.obj []), metadata⟩
    | _ => .error .invalidTree
  | _ => .error .invalidTree

/-- The tree of a record's three fields: the nodes have to be an array of nodes, and metadata, if
given, an object. -/
def ofParts? (nodes frontmatter metadata : Option Value) : Option Tree := do
  let items ← nodes.bind Value.asArray?
  let nodes ← (Node.listOfWire items).toOption
  let metadata ← match metadata with
    | none => some []
    | some value => value.asObject?
  return ⟨nodes, frontmatter.getD (.obj []), metadata⟩

/-- The tree of a record: an object with these fields, or an array of them in order in which the
later ones may be left out. -/
def ofRecord? : Value → Option Tree
  | .obj fields =>
    ofParts? (Attrs.get? fields "nodes") (Attrs.get? fields "frontmatter") (Attrs.get? fields "meta")
  | .arr [nodes] => ofParts? (some nodes) none none
  | .arr [nodes, frontmatter] => ofParts? (some nodes) (some frontmatter) none
  | .arr [nodes, frontmatter, metadata] =>
    ofParts? (some nodes) (some frontmatter) (some metadata)
  | _ => none

/-- The fields of the record form, in order. -/
def shape : Json.RecordShape := ⟨["nodes", "frontmatter", "meta"], none⟩

/-- The tree of a JSON text. Repeated fields of the record are an error here. -/
def ofJson? (text : String) : Option Tree :=
  ((Json.written? text).bind (Json.Written.record? shape)).bind ofRecord?

end Tree

/-- The node of a JSON text. -/
def Node.ofJson? (text : String) : Option Node :=
  (Json.value? text).bind fun value => (Node.ofWire value).toOption

end ComponentMarkdown
