import ComponentMarkdown.Markup.Wire
import ComponentMarkdown.Proofs.Attrs
import ComponentMarkdown.Proofs.Markup.Tree

namespace ComponentMarkdown

namespace Value

/-- The values that stand for nodes. What stands behind the tag of an element may be left out together with its
children, and of a comment nothing counts but its text. -/
inductive IsNodeWire : Value → Prop
  | text (content : String) : IsNodeWire (.str content)
  | comment (ignored : Value) (content : String) (more : List Value) :
      IsNodeWire (.arr (.null :: ignored :: .str content :: more))
  | tag (tag : String) : IsNodeWire (.arr [.str tag])
  | element (tag : String) {attrs : Value} (map : attrs = .null ∨ ∃ fields, attrs = .obj fields)
    {children : List Value}
      (below : ∀ child ∈ children, IsNodeWire child) : IsNodeWire (.arr (.str tag :: attrs :: children))

/-- What keeps a value from standing for a node, whatever its children are. -/
def wireError? : Value → Option WireError
  | .str _ => none
  | .arr [] => some .missingTag
  | .arr (.null :: _ :: .str _ :: _) => none
  | .arr (.null :: _) => some .invalidComment
  | .arr [.str _] => none
  | .arr (.str _ :: .null :: _) => none
  | .arr (.str _ :: .obj _ :: _) => none
  | .arr (.str tag :: _ :: _) => some (.invalidAttrs tag)
  | .arr (_ :: _) => some .missingTag
  | other => some (.unexpectedValue other.kind)

/-- The values that stand for the children of an element. -/
def wireChildren : Value → List Value
  | .arr (.str _ :: _ :: children) => children
  | _ => []

mutual

/-- A value and those in it that stand for nodes, depth first and from left to right. -/
def wireNodes : Value → List Value
  | .arr (.str tag :: attrs :: children) => .arr (.str tag :: attrs :: children) :: allWireNodes children
  | value => [value]

def allWireNodes : List Value → List Value
  | [] => []
  | value :: rest => value.wireNodes ++ allWireNodes rest

end

theorem allWireNodes_eq (values : List Value) : allWireNodes values = values.flatMap wireNodes := by
  induction values with
  | nil => rw [allWireNodes, List.flatMap_nil]
  | cons value rest ih => rw [allWireNodes, ih, List.flatMap_cons]

theorem wireNodes_eq (value : Value) : value.wireNodes = value :: value.wireChildren.flatMap wireNodes := by
  unfold wireNodes
  split
  · rw [allWireNodes_eq, wireChildren]
  · rename_i other
    have none : value.wireChildren = [] := by
      unfold wireChildren
      split
      · exact absurd rfl (other _ _ _)
      · rfl
    rw [none, List.flatMap_nil]

theorem mem_of_mem_wireChildren {value child : Value} (member : child ∈ value.wireChildren) :
    ∃ items, value = .arr items ∧ child ∈ items := by
  unfold wireChildren at member
  split at member
  · exact ⟨_, rfl, List.mem_cons_of_mem _ (List.mem_cons_of_mem _ member)⟩
  · cases member

/-- What holds of a value as soon as it holds of its children as a node holds of every value. -/
theorem wireInduction {P : Value → Prop} (step : ∀ value, (∀ child ∈ value.wireChildren, P child) → P value)
    (value : Value) : P value := by
  induction value using induction with
  | step value items _ =>
    refine step value fun child member => ?_
    obtain ⟨all, same, inside⟩ := mem_of_mem_wireChildren member
    exact items all same child inside

/-- A value stands for a node if nothing is wrong with the value itself and its children stand for nodes. -/
theorem isNodeWire_iff {value : Value} :
    value.IsNodeWire ↔ value.wireError? = none ∧ ∀ child ∈ value.wireChildren, child.IsNodeWire := by
  constructor
  · rintro (content | ⟨ignored, content, more⟩ | tag | ⟨tag, rfl | ⟨fields, rfl⟩, below⟩)
    · exact ⟨rfl, by simp [wireChildren]⟩
    · exact ⟨rfl, by simp [wireChildren]⟩
    · exact ⟨rfl, by simp [wireChildren]⟩
    · exact ⟨by simp [wireError?], below⟩
    · exact ⟨by simp [wireError?], below⟩
  · rintro ⟨right, below⟩
    unfold wireError? at right
    split at right
    · exact .text _
    · cases right
    · exact .comment _ _ _
    · cases right
    · exact .tag _
    · exact .element _ (Or.inl rfl) below
    · exact .element _ (Or.inr ⟨_, rfl⟩) below
    · cases right
    · cases right
    · cases right

end Value

namespace Node

/-- One step of reading: a value is refused as it stands, or it is read as soon as its children are. -/
theorem ofWire_cases (value : Value) :
    (∃ error, value.wireError? = some error ∧ ofWire value = .error error) ∨
      value.wireError? = none ∧ ∃ build, ofWire value = (listOfWire value.wireChildren).map build := by
  cases value with
  | null | bool | num | obj => exact Or.inl ⟨_, rfl, rfl⟩
  | str content => exact Or.inr ⟨rfl, fun _ => .text content, rfl⟩
  | arr items =>
    rcases items with _ | ⟨head, rest⟩
    · exact Or.inl ⟨_, rfl, rfl⟩
    cases head with
    | bool | num | arr | obj => exact Or.inl ⟨_, rfl, rfl⟩
    | null =>
      rcases rest with _ | ⟨ignored, _ | ⟨payload, more⟩⟩
      · exact Or.inl ⟨_, rfl, rfl⟩
      · exact Or.inl ⟨_, rfl, rfl⟩
      · cases payload with
        | str content => exact Or.inr ⟨rfl, fun _ => .comment content, rfl⟩
        | _ => exact Or.inl ⟨_, rfl, rfl⟩
    | str tag =>
      rcases rest with _ | ⟨attrs, children⟩
      · exact Or.inr ⟨rfl, fun _ => .element tag [] [], rfl⟩
      · cases attrs with
        | null => exact Or.inr ⟨rfl, .element tag [], by rw [ofWire, Value.wireChildren]⟩
        | obj fields => exact Or.inr ⟨rfl, .element tag fields, by rw [ofWire, Value.wireChildren]⟩
        | _ => exact Or.inl ⟨_, rfl, rfl⟩

theorem listOfWire_cons (value : Value) (rest : List Value) :
    listOfWire (value :: rest) =
      (ofWire value).bind fun node => (listOfWire rest).map (node :: ·) := by
  rw [listOfWire]
  rcases ofWire value with error | node
  · rfl
  · rcases listOfWire rest with error | nodes
    · rfl
    · rfl

/-- A list is read if and only if each of its values is. -/
theorem listOfWire_isOk_iff {values : List Value} :
    (∃ nodes, listOfWire values = .ok nodes) ↔ ∀ value ∈ values, ∃ node, ofWire value = .ok node := by
  induction values with
  | nil => simp [listOfWire]
  | cons value rest ih =>
    rw [listOfWire_cons, List.forall_mem_cons, ← ih]
    rcases ofWire value with error | node
    · simp [Except.bind]
    · rcases listOfWire rest with error | nodes
      · simp [Except.bind, Except.map]
      · simp [Except.bind, Except.map]

theorem listOfWire_eq_error_iff {values : List Value}
    (each : ∀ value ∈ values, ∀ error,
      ofWire value = .error error ↔ value.wireNodes.findSome? Value.wireError? = some error)
    (error : WireError) :
    listOfWire values = .error error ↔
    (values.flatMap Value.wireNodes).findSome? Value.wireError? = some error := by
  induction values with
  | nil => simp [listOfWire]
  | cons value rest ih =>
    obtain ⟨here, below⟩ := List.forall_mem_cons.1 each
    rw [listOfWire_cons, List.flatMap_cons, List.findSome?_append]
    cases read : ofWire value with
    | error first =>
      rw [(here first).1 read, Option.some_or]
      simp [Except.bind]
    | ok node =>
      have none : value.wireNodes.findSome? Value.wireError? = none := by
        rw [Option.eq_none_iff_forall_ne_some]
        intro first found
        rw [(here first).2 found] at read
        cases read
      rw [none, Option.none_or, ← ih below]
      rcases listOfWire rest with later | nodes
      · simp [Except.bind, Except.map]
      · simp [Except.bind, Except.map]

/-- The error is that of the first value that is wrong, depth first and from left to right. -/
theorem ofWire_eq_error_iff (value : Value) (error : WireError) :
    ofWire value = .error error ↔ value.wireNodes.findSome? Value.wireError? = some error := by
  induction value using Value.wireInduction generalizing error with
  | step value ih =>
    rw [Value.wireNodes_eq, List.findSome?_cons]
    rcases ofWire_cases value with ⟨first, wrong, read⟩ | ⟨right, build, read⟩
    · simp [read, wrong]
    · rw [read, right, ← listOfWire_eq_error_iff ih error]
      rcases listOfWire value.wireChildren with later | nodes
      · simp [Except.map]
      · simp [Except.map]

/-- A later child is not looked at once an earlier one is wrong, and attributes come before children. -/
example :
    ofWire (.arr [.str "p", .null, .arr [.str "a", .num (.int 1), .null], .arr []]) =
    .error (.invalidAttrs "a") := rfl

/-- What is read as a node are the values of the grammar. -/
theorem ofWire_isOk_iff (value : Value) : (∃ node, ofWire value = .ok node) ↔ value.IsNodeWire := by
  induction value using Value.wireInduction with
  | step value ih =>
    rw [Value.isNodeWire_iff, ← forall₂_congr ih, ← listOfWire_isOk_iff]
    rcases ofWire_cases value with ⟨first, wrong, read⟩ | ⟨right, build, read⟩
    · simp [read, wrong]
    · rw [read, right]
      rcases listOfWire value.wireChildren with later | nodes
      · simp [Except.map]
      · simp [Except.map]

theorem listToWire_eq_map (nodes : List Node) : listToWire nodes = nodes.map toWire := by
  induction nodes with
  | nil => rw [listToWire, List.map_nil]
  | cons node rest ih => rw [listToWire, ih, List.map_cons]

theorem listOfWire_map_toWire {nodes : List Node} (each : ∀ node ∈ nodes, ofWire node.toWire = .ok node) :
    listOfWire (nodes.map toWire) = .ok nodes := by
  induction nodes with
  | nil => rw [List.map_nil, listOfWire]
  | cons node rest ih =>
    obtain ⟨here, below⟩ := List.forall_mem_cons.1 each
    rw [List.map_cons, listOfWire_cons, here, ih below]
    rfl

theorem ofWire_toWire (node : Node) : ofWire node.toWire = .ok node := by
  induction node using induction with
  | text content => rw [toWire, ofWire]
  | comment content => rw [toWire, ofWire]
  | element tag attrs children ih =>
    rw [toWire, listToWire_eq_map, ofWire, listOfWire_map_toWire ih]
    rfl

theorem listOfWire_listToWire (nodes : List Node) : listOfWire (listToWire nodes) = .ok nodes := by
  rw [listToWire_eq_map]
  exact listOfWire_map_toWire fun node _ => ofWire_toWire node

end Node

namespace Tree

/-- Whether an object has no metadata, or metadata that is an object. -/
def hasPlainMetadata (fields : Attrs) : Bool := (fields.get? "meta").all fun value => value.asObject?.isSome

/-- The decoder of records takes what the other one takes, unless there is metadata that is no object, and reads the
same tree. -/
theorem ofRecord?_eq_some_iff (fields : Attrs) (tree : Tree) :
    ofRecord? (.obj fields) = some tree ↔ ofWire (.obj fields) = .ok tree ∧ hasPlainMetadata fields = true := by
  rw [ofRecord?, ofParts?, ofWire, hasPlainMetadata]
  cases fields.get? "nodes" with
  | none => simp
  | some value =>
    cases value with
    | arr items =>
      rcases read : Node.listOfWire items with error | nodes
      · simp [Value.asArray?, read, Except.toOption, bind, Except.bind]
      · cases fields.get? "meta" with
        | none => simp [Value.asArray?, read, Except.toOption, bind, Except.bind, pure, Except.pure]
        | some metadata =>
          cases metadata <;>
            simp [Value.asArray?, Value.asObject?, read, Except.toOption, bind, Except.bind, pure, Except.pure]
    | _ => simp [Value.asArray?]

theorem ofWire_toWire (tree : Tree) : ofWire tree.toWire = .ok tree := by
  rw [toWire, ofWire]
  simp [Attrs.get?_cons, Node.listOfWire_listToWire, bind, Except.bind, pure, Except.pure]

end Tree

/-- The wire format of markup. Writing a node and reading it gives the node back; a value is read as a node if and
only if it is of the grammar, and otherwise the first value that does not fit is reported. Both decoders of trees
give back what was written, and on objects they agree but for metadata that is no object. -/
theorem Tree.wire_forms :
    (∀ node : Node, Node.ofWire node.toWire = .ok node) ∧
      (∀ value, (∃ node, Node.ofWire value = .ok node) ↔ value.IsNodeWire) ∧
      (∀ value error, Node.ofWire value = .error error ↔ value.wireNodes.findSome? Value.wireError? = some error) ∧
      (∀ fields tree, ofRecord? (.obj fields) = some tree ↔
        ofWire (.obj fields) = .ok tree ∧ hasPlainMetadata fields = true) ∧
      ∀ tree : Tree, ofWire tree.toWire = .ok tree ∧ ofRecord? tree.toWire = some tree :=
  ⟨Node.ofWire_toWire, Node.ofWire_isOk_iff, Node.ofWire_eq_error_iff, ofRecord?_eq_some_iff, fun tree =>
    ⟨ofWire_toWire tree, (ofRecord?_eq_some_iff _ tree).2 ⟨ofWire_toWire tree, rfl⟩⟩⟩

end ComponentMarkdown
