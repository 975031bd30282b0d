import ComponentMarkdown.Proofs.Doc.TagKind
import ComponentMarkdown.Proofs.Doc.WrittenText
import ComponentMarkdown.Proofs.SlugRegistry

namespace ComponentMarkdown

namespace DocNode

/-- A node and everything in it, in document order. -/
def inOrder (node : DocNode) : List DocNode := node.fold fun node below => node :: below.flatten

theorem inOrder_eq (node : DocNode) : node.inOrder = node :: node.children.flatMap inOrder := by
  rw [inOrder, fold_eq]
  rfl

/-- The anchor of a heading, with the text that the heading has in markup. -/
def anchor? : DocNode → Option Anchor
  | heading _ id children => some ⟨writtenTexts children, id⟩
  | _ => none

/-- The anchors of the headings in a node, in document order. -/
def anchors (node : DocNode) : List Anchor := node.inOrder.filterMap anchor?

theorem anchors_eq (node : DocNode) : node.anchors = node.anchor?.toList ++ node.children.flatMap anchors := by
  rw [anchors, inOrder_eq, List.filterMap_cons, List.filterMap_flatMap]
  cases node.anchor? <;> rfl

/-- Whether a node is the slot of what stands in a component outside of its slots. -/
def isDefaultSlot : DocNode → Bool
  | slot _ _ synthetic _ => synthetic
  | _ => false

/-- A list with some of its items moved to its end. -/
def withLast {α : Type} (isLast : α → Bool) (items : List α) : List α :=
  items.filter (!isLast ·) ++ items.filter isLast

/-- The children of a node in the order in which they are read from markup. -/
def readOrder : DocNode → List DocNode
  | element _ _ children => withLast isDefaultSlot children
  | node => node.children

/-- What is listed of a node in the order of reading, given what is listed of its children. -/
def readAnchorsWith (node : DocNode) (below : List (List Anchor)) : List Anchor :=
  node.anchor?.toList ++
    match node with
    | element _ _ children => (withLast (·.1.isDefaultSlot) (children.zip below)).flatMap Prod.snd
    | _ => below.flatten

/-- The anchors of the headings in a node, in the order in which they are read from markup. -/
def readAnchors (node : DocNode) : List Anchor := node.fold readAnchorsWith

theorem readAnchors_eq (node : DocNode) :
    node.readAnchors = node.anchor?.toList ++ node.readOrder.flatMap readAnchors := by
  have paired : ∀ children : List DocNode, children.zip (children.map readAnchors) =
      children.map fun child => (child, child.readAnchors) := by
    intro children
    induction children with
    | nil => rfl
    | cons child rest ih => rw [List.map_cons, List.zip_cons_cons, ih, List.map_cons]
  have folded : node.readAnchors = readAnchorsWith node (node.children.map readAnchors) := by
    rw [readAnchors, fold_eq]
    rfl
  rw [folded]
  cases node
  case element tag props children =>
    simp only [readAnchorsWith, DocNode.children, readOrder, paired, withLast, List.filter_map, List.flatMap_append,
      List.flatMap_map]
    rfl
  all_goals rfl

/-- A heading outside of the slots of a component, with the headings in slots that stand behind it but are read
first. -/
def overtakenAmong : List DocNode → List (Anchor × Anchor)
  | [] => []
  | child :: rest =>
    let later := (rest.filter (!isDefaultSlot ·)).flatMap anchors
    (if child.isDefaultSlot then child.anchors.flatMap fun anchor => later.map fun other => (anchor, other) else [])
      ++ overtakenAmong rest

/-- The headings right in the slots of a component that are overtaken, each with those that are read before it. -/
def overtaken : DocNode → List (Anchor × Anchor)
  | element _ _ children => overtakenAmong children
  | _ => []

/-- What a node of the document becomes a heading element from: a heading, which gets a new anchor, or an element
of the document with a heading's tag, which keeps its attributes. -/
def headingSourcesWith (isHeading : String → Bool) (node : DocNode) (below : List (List (Option Attrs))) :
    List (Option Attrs) :=
  match node with
  | heading _ _ _ => none :: below.flatten
  | element tag props _ | inlineElement tag props _ _ =>
    (if isHeading tag then [some props] else []) ++ below.flatten
  | codeBlock _ _ _ | unknown _ _ _ => []
  | _ => below.flatten

/-- What heading elements are written from, in document order. -/
def headingSources (isHeading : String → Bool) (node : DocNode) : List (Option Attrs) :=
  node.fold (headingSourcesWith isHeading)

theorem headingSources_eq (isHeading : String → Bool) (node : DocNode) : node.headingSources isHeading =
    headingSourcesWith isHeading node (node.children.map (headingSources isHeading)) := by
  rw [headingSources, fold_eq]
  rfl

end DocNode

namespace Doc

/-- The anchors of the headings of a document, in document order. -/
def anchors (doc : Doc) : List Anchor := doc.content.flatMap DocNode.anchors

/-- The ids of the headings of a document, in document order. -/
def headingIds (doc : Doc) : List String := doc.anchors.map Anchor.slug

/-- The headings of a document that stand outside of the slots of a component, each with the headings in slots of
the component that stand behind it. -/
def overtaken (doc : Doc) : List (Anchor × Anchor) :=
    (doc.content.flatMap DocNode.inOrder).flatMap DocNode.overtaken

end Doc

namespace Node

/-- The attributes of an element with a heading's tag. -/
def attrsIf? (isHeading : String → Bool) : Node → Option Attrs
  | element tag attrs _ => if isHeading tag then some attrs else none
  | _ => none

/-- The attributes of the heading elements in a node, in document order. -/
def headingAttrs (isHeading : String → Bool) (node : Node) : List Attrs :=
  node.inOrder.filterMap (attrsIf? isHeading)

section HeadingAttrs

variable (isHeading : String → Bool)

theorem headingAttrs_element (tag : String) (attrs : Attrs) (children : List Node) :
    (element tag attrs children).headingAttrs isHeading =
      (if isHeading tag then [attrs] else []) ++ children.flatMap (headingAttrs isHeading) := by
  rw [headingAttrs, inOrder_element, List.filterMap_cons, List.filterMap_flatMap, attrsIf?]
  split <;> rename_i found
  · rw [if_neg (by simpa using found)]
    rfl
  · obtain ⟨yes, same⟩ := Option.ite_none_right_eq_some.1 found
    rw [if_pos yes, Option.some.inj same]
    rfl

theorem headingAttrs_text (content : String) : (text content).headingAttrs isHeading = [] := by
  rw [headingAttrs, inOrder_text]
  rfl

theorem headingAttrs_comment (content : String) : (comment content).headingAttrs isHeading = [] := by
  rw [headingAttrs, inOrder_comment]
  rfl

variable {isHeading}

theorem seesThroughFormatting_headingAttrs (plain : ∀ kind : MarkKind, isHeading kind.tag = false) :
    SeesThroughFormatting (headingAttrs isHeading) where
  text content next := by simp only [headingAttrs_text, List.append_nil]
  formatting kind attrs children := by rw [headingAttrs_element, plain kind, if_neg (by simp), List.nil_append]

end HeadingAttrs

end Node

end ComponentMarkdown
