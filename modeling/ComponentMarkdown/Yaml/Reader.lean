import ComponentMarkdown.Attrs
import ComponentMarkdown.Yaml.Node

namespace ComponentMarkdown.Yaml

/-- The value of what a scalar stands for. -/
def Resolved.value? (text : List Char) : Resolved → Option Value
  | .null => some .null
  | .bool b => some (.bool b)
  | .int n => if -0x8000000000000000 ≤ n ∧ n < 0x10000000000000000 then some (.num (.int n)) else none
  | .float x => some (if x.isFinite then .num (.float x) else .null)
  | .string => some (.str (String.ofList text))

/-- A tag of the common kinds. -/
def commonTag (name : String) : List Char := "tag:yaml.org,2002:".toList ++ name.toList

/-- The value of a scalar. -/
def scalarValue? (tag : Option (List Char)) (text : List Char) (plain : Bool) : Option Value :=
  match tag with
  | none => if plain then (resolve text).value? text else some (.str (String.ofList text))
  | some tag =>
    if tag.head? = some '!' then none
    else if tag = commonTag "bool" then
      match resolve text with
      | .bool b => some (.bool b)
      | _ => none
    else if tag = commonTag "int" then
      match resolve text with
      | .int n => (Resolved.int n).value? text
      | _ => none
    else if tag = commonTag "float" then
      (float? text).bind (fun x => (Resolved.float x).value? text)
    else if tag = commonTag "null" then
      if text ≠ [] ∧ resolve text = .null then some .null else none
    else some (.str (String.ofList text))

def isLocal (tag : Option (List Char)) : Bool := tag.any (fun tag => tag.head? = some '!')

/-- The key that a node stands for. -/
def Node.key? : Node → Option String
  | .scalar _ text _ => some (String.ofList text)
  | _ => none

mutual

/-- The value of a node. -/
def Node.value? : Node → Option Value
  | .scalar tag text plain => scalarValue? tag text plain
  | .sequence tag items =>
    if isLocal tag then none else (Node.values? items).map .arr
  | .mapping tag fields =>
    if isLocal tag then none
    else (Node.entries? fields).map (fun entries => .obj (Attrs.ofFields entries))

def Node.values? : List Node → Option (List Value)
  | [] => some []
  | node :: rest => do
    let v ← node.value?
    let vs ← Node.values? rest
    return v :: vs

def Node.entries? : List (Node × Node) → Option (List (String × Value))
  | [] => some []
  | (keyNode, node) :: rest => do
    let key ← keyNode.key?
    let v ← node.value?
    let entries ← Node.entries? rest
    return (key, v) :: entries

end

/-- How deep collections may be nested. -/
def maxDepth : Nat := 128

/-- The value of a YAML text. -/
def value? (text : String) : Option Value := do
  let tokens ← tokens? text.toList
  let node ← document? tokens
  if maxDepth < node.depth then none else node.value?

end ComponentMarkdown.Yaml
