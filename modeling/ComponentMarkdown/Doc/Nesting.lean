import ComponentMarkdown.Doc.Runs
import ComponentMarkdown.LinkPolicy
import ComponentMarkdown.Markup.Node

namespace ComponentMarkdown

/-- A markup node with the marks it carries, the innermost first. -/
structure MarkedNode where
  marks : List Mark
  node : Node
deriving Repr, Inhabited

namespace MarkedNode

/-- Joins neighbouring texts with equal marks. -/
def coalesce : List MarkedNode → List MarkedNode
  | [] => []
  | ⟨marks, .text content⟩ :: rest =>
    match coalesce rest with
    | ⟨marks', .text next⟩ :: tail =>
      if Mark.sameList marks marks' then ⟨marks, .text (content ++ next)⟩ :: tail
      else ⟨marks, .text content⟩ :: ⟨marks', .text next⟩ :: tail
    | tail => ⟨marks, .text content⟩ :: tail
  | item :: rest => item :: coalesce rest

/-- The element of a mark. -/
def markElement [Surroundings] (mark : Mark) (children : List Node) : Node :=
  let attrs := if mark.kind = .link then LinkPolicy.markupAttrs mark.attrs else mark.attrs
  .element mark.kind.tag attrs children

/-- The node without its outermost mark. -/
def dropOuter (item : MarkedNode) : MarkedNode := { item with marks := item.marks.dropLast }

/-- The nodes of a list with at most `depth` marks on each, inside the elements of their marks. -/
def nestWithin [Surroundings] : Nat → List MarkedNode → List Node
  | 0, items => items.map node
  | depth + 1, items =>
    (Run.byOuterMark marks items).flatMap fun run =>
      match run.key with
      | none => run.items.map node
      | some mark => [markElement mark (nestWithin depth (run.items.map dropOuter))]

/-- The largest number of marks on a node. -/
def depth (items : List MarkedNode) : Nat := (items.map fun item => item.marks.length).foldr max 0

/-- The nodes of a list inside the elements of their marks, one element for each run of nodes with
the same outermost mark. -/
def nest [Surroundings] (items : List MarkedNode) : List Node := nestWithin (depth items) items

end MarkedNode

namespace Node

/-- Joins neighbouring texts. -/
def glueTexts : List Node → List Node
  | [] => []
  | .text content :: rest =>
    match glueTexts rest with
    | .text next :: tail => .text (content ++ next) :: tail
    | tail => .text content :: tail
  | node :: rest => node :: glueTexts rest

/-- The tags of formatting that may be joined over a blank. -/
def joinableTags : List String := ["strong", "em", "del", "a"]

/-- The element that two elements make with a blank between them, if they are the same formatting. -/
def joinOver? (left space right : Node) : Option Node :=
  match left, space, right with
  | .element tag attrs children, .text " ", .element tag' attrs' children' =>
    if tag = tag' ∧ attrs.same attrs' ∧ tag ∈ joinableTags then
      some (.element tag attrs (glueTexts (children ++ .text " " :: children')))
    else none
  | _, _, _ => none

/-- Puts a node in front of a list and joins it with the second node, if only a blank is between. -/
def consJoining (node : Node) : List Node → List Node
  | space :: right :: rest =>
    match joinOver? node space right with
    | some joined => joined :: rest
    | none => node :: space :: right :: rest
  | rest => node :: rest

/-- Joins formatting that only a single blank interrupts. -/
def joinSplitMarks (nodes : List Node) : List Node := nodes.foldr consJoining []

end Node

end ComponentMarkdown
