import ComponentMarkdown.Yaml.Token

namespace ComponentMarkdown.Yaml

/-- A node with its tag, if one was written. -/
inductive Node where
  | scalar (tag : Option (List Char)) (text : List Char) (plain : Bool)
  | sequence (tag : Option (List Char)) (items : List Node)
  | mapping (tag : Option (List Char)) (fields : List (Node × Node))
deriving Repr, Inhabited

mutual

/-- How deep the collections of a node are nested. -/
def Node.depth : Node → Nat
  | .scalar _ _ _ => 0
  | .sequence _ items => Node.depthOfItems items + 1
  | .mapping _ fields => Node.depthOfFields fields + 1

def Node.depthOfItems : List Node → Nat
  | [] => 0
  | item :: rest => max item.depth (Node.depthOfItems rest)

def Node.depthOfFields : List (Node × Node) → Nat
  | [] => 0
  | (key, value) :: rest => max (max key.depth value.depth) (Node.depthOfFields rest)

end

/-- A scalar that was left out. -/
def Node.empty : Node := .scalar none [] true

/-- The nodes that anchors name. A node that is not complete has a name but cannot be used. -/
abbrev Anchors := List (List Char × Option Node)

namespace Anchors

/-- The node that an anchor names. -/
def get? (anchors : Anchors) (name : List Char) : Option Node := (anchors.lookup name).join

/-- Completes the node of the anchor that has so many in front of it. -/
def complete (anchors : Anchors) (before : Nat) (name : List Char) (node : Node) : Anchors :=
  anchors.set (anchors.length - before - 1) (name, some node)

end Anchors

/-- The tag of a scalar. A mark alone says nothing. -/
def scalarTag (tag : Option (List Char)) : Option (List Char) :=
  if tag = some ['!'] then none else tag

/-- The anchor and the tag in front of a node, in either order. -/
def properties : List Token → Option (List Char) × Option (List Char) × List Token
  | .anchor name :: .tag tag :: rest => (some name, some tag, rest)
  | .tag tag :: .anchor name :: rest => (some name, some tag, rest)
  | .anchor name :: rest => (some name, none, rest)
  | .tag tag :: rest => (none, some tag, rest)
  | tokens => (none, none, tokens)

/-- Whether the next token is one of these. -/
def nextIn (kinds : List Token) (tokens : List Token) : Bool := tokens.head?.any (· ∈ kinds)

mutual

/-- A node. Block collections are allowed outside brackets only, and a sequence that is not indented
only behind a key. -/
def node? (block indentless : Bool) : Nat → Anchors → List Token → Option (Node × Anchors × List Token)
  | 0, _, _ => none
  | _ + 1, anchors, .alias name :: rest =>
    (anchors.get? name).map fun node => (node, anchors, rest)
  | fuel + 1, outer, tokens => do
    let (anchor, tag, tokens) := properties tokens
    let anchors := match anchor with
      | some name => (name, none) :: outer
      | none => outer
    let (node, anchors, rest) ← match tokens with
      | .blockEntry :: _ =>
        if indentless then do
          let (items, anchors, rest) ← indentlessItems? fuel anchors tokens
          some (Node.sequence tag items, anchors, rest)
        else if anchor.isSome ∨ tag.isSome then some (Node.scalar tag [] true, anchors, tokens)
        else none
      | .scalar text plain :: rest => some (Node.scalar (scalarTag tag) text plain, anchors, rest)
      | .flowSequenceStart :: rest => do
        let (items, anchors, rest) ← flowItems? true fuel anchors rest
        some (Node.sequence tag items, anchors, rest)
      | .flowMappingStart :: rest => do
        let (fields, anchors, rest) ← flowFields? true fuel anchors rest
        some (Node.mapping tag fields, anchors, rest)
      | tokens =>
        match block, tokens with
        | true, .blockSequenceStart :: rest => do
          let (items, anchors, rest) ← blockItems? fuel anchors rest
          some (Node.sequence tag items, anchors, rest)
        | true, .blockMappingStart :: rest => do
          let (fields, anchors, rest) ← blockFields? fuel anchors rest
          some (Node.mapping tag fields, anchors, rest)
        | _, _ =>
          if anchor.isSome ∨ tag.isSome then some (Node.scalar tag [] true, anchors, tokens)
          else none
    match anchor with
    | some name => some (node, anchors.complete outer.length name node, rest)
    | none => some (node, anchors, rest)

/-- A node, or an empty scalar when one of the given tokens comes next. -/
def nodeUnless? (stop : List Token) (block indentless : Bool) :
    Nat → Anchors → List Token → Option (Node × Anchors × List Token)
  | 0, _, _ => none
  | fuel + 1, anchors, tokens =>
    if nextIn stop tokens then some (.empty, anchors, tokens)
    else node? block indentless fuel anchors tokens

/-- The items of an indented block sequence, and its end. -/
def blockItems? : Nat → Anchors → List Token → Option (List Node × Anchors × List Token)
  | 0, _, _ => none
  | fuel + 1, anchors, .blockEntry :: rest => do
    let (item, anchors, rest) ← nodeUnless? [.blockEntry, .blockEnd] true false fuel anchors rest
    let (items, anchors, rest) ← blockItems? fuel anchors rest
    some (item :: items, anchors, rest)
  | _ + 1, anchors, .blockEnd :: rest => some ([], anchors, rest)
  | _ + 1, _, _ => none

/-- The items of a sequence that is not indented. -/
def indentlessItems? : Nat → Anchors → List Token → Option (List Node × Anchors × List Token)
  | 0, _, _ => none
  | fuel + 1, anchors, .blockEntry :: rest => do
    let (item, anchors, rest) ←
      nodeUnless? [.blockEntry, .key, .value, .blockEnd] true false fuel anchors rest
    let (items, anchors, rest) ← indentlessItems? fuel anchors rest
    some (item :: items, anchors, rest)
  | _ + 1, anchors, tokens => some ([], anchors, tokens)

/-- The value of a block field, if there is one. -/
def blockValue? : Nat → Anchors → List Token → Option (Node × Anchors × List Token)
  | 0, _, _ => none
  | fuel + 1, anchors, .value :: rest =>
    nodeUnless? [.key, .value, .blockEnd] true true fuel anchors rest
  | _ + 1, anchors, tokens => some (.empty, anchors, tokens)

/-- The fields of a block mapping, and its end. -/
def blockFields? : Nat → Anchors → List Token → Option (List (Node × Node) × Anchors × List Token)
  | 0, _, _ => none
  | fuel + 1, anchors, .key :: rest => do
    let (key, anchors, rest) ←
      nodeUnless? [.key, .value, .blockEnd] true true fuel anchors rest
    let (value, anchors, rest) ← blockValue? fuel anchors rest
    let (fields, anchors, rest) ← blockFields? fuel anchors rest
    some ((key, value) :: fields, anchors, rest)
  | _ + 1, anchors, .blockEnd :: rest => some ([], anchors, rest)
  | _ + 1, _, _ => none

/-- The items in brackets. A pair of key and value among them is a mapping of its own. A key that is
left out takes the token behind its mark with it, so its colon has to be written twice. -/
def flowItems? (first : Bool) : Nat → Anchors → List Token → Option (List Node × Anchors × List Token)
  | 0, _, _ => none
  | _ + 1, anchors, .flowSequenceEnd :: rest => some ([], anchors, rest)
  | fuel + 1, anchors, tokens => do
    let tokens ← match first, tokens with
      | true, tokens => some tokens
      | false, .flowEntry :: rest => some rest
      | false, _ => none
    match tokens with
    | .flowSequenceEnd :: rest => some ([], anchors, rest)
    | .key :: rest =>
      let (key, anchors, rest) ←
        if nextIn [.value, .flowEntry, .flowSequenceEnd] rest then
          some (Node.empty, anchors, rest.drop 1)
        else node? false false fuel anchors rest
      let (value, anchors, rest) ← match rest with
        | .value :: rest =>
          nodeUnless? [.flowEntry, .flowSequenceEnd] false false fuel anchors rest
        | rest => some (.empty, anchors, rest)
      let (items, anchors, rest) ← flowItems? false fuel anchors rest
      some (.mapping none [(key, value)] :: items, anchors, rest)
    | tokens =>
      let (item, anchors, rest) ← node? false false fuel anchors tokens
      let (items, anchors, rest) ← flowItems? false fuel anchors rest
      some (item :: items, anchors, rest)

/-- The fields in braces. -/
def flowFields? (first : Bool) : Nat → Anchors → List Token → Option (List (Node × Node) × Anchors × List Token)
  | 0, _, _ => none
  | _ + 1, anchors, .flowMappingEnd :: rest => some ([], anchors, rest)
  | fuel + 1, anchors, tokens => do
    let tokens ← match first, tokens with
      | true, tokens => some tokens
      | false, .flowEntry :: rest => some rest
      | false, _ => none
    match tokens with
    | .flowMappingEnd :: rest => some ([], anchors, rest)
    | .key :: rest =>
      let (key, anchors, rest) ←
        nodeUnless? [.value, .flowEntry, .flowMappingEnd] false false fuel anchors rest
      let (value, anchors, rest) ← match rest with
        | .value :: rest =>
          nodeUnless? [.flowEntry, .flowMappingEnd] false false fuel anchors rest
        | rest => some (.empty, anchors, rest)
      let (fields, anchors, rest) ← flowFields? false fuel anchors rest
      some ((key, value) :: fields, anchors, rest)
    | tokens =>
      let (key, anchors, rest) ← node? false false fuel anchors tokens
      let (fields, anchors, rest) ← flowFields? false fuel anchors rest
      some ((key, .empty) :: fields, anchors, rest)

end

/-- The document of a token list that holds at most one. Without any, it is an empty scalar. -/
def document? (tokens : List Token) : Option Node := do
  let directives := tokens.takeWhile (· = .directive)
  let tokens := tokens.dropWhile (· = .directive)
  if 1 < directives.length then none
  let (node, rest) ← match directives, tokens with
    | [], [] => some (Node.empty, [])
    | _, .documentStart :: rest =>
      if rest.isEmpty ∨ nextIn [.directive, .documentStart, .documentEnd] rest then
        some (Node.empty, rest)
      else (node? true false (4 * rest.length + 4) [] rest).map (fun (node, _, rest) => (node, rest))
    | [], tokens =>
      (node? true false (4 * tokens.length + 4) [] tokens).map (fun (node, _, rest) => (node, rest))
    | _, _ => none
  if (rest.dropWhile (· = .documentEnd)).isEmpty then some node else none

end ComponentMarkdown.Yaml
