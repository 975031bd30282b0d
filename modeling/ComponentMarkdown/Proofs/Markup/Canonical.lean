import ComponentMarkdown.Doc.OfMarkup
import ComponentMarkdown.Doc.ToMarkup
import ComponentMarkdown.Proofs.Attrs

namespace ComponentMarkdown

namespace Attrs

/-- A link says nothing with `null`, and a link to another site has no attribute that the editor adds. -/
def isCanonicalLink [Surroundings] (attrs : Attrs) : Bool :=
  attrs.all (fun entry => !entry.2.isNull) &&
    (!LinkPolicy.isExternal attrs ||
      (!attrs.contains "target" && attrs.getString? "rel" ≠ some LinkPolicy.defaultRel))

/-- A link around more than text leads somewhere, and its target and `rel` are not empty. -/
def isCanonicalRichLink (attrs : Attrs) : Bool :=
  (attrs.getString? "href").isSome && attrs.getString? "target" ≠ some "" &&
    attrs.getString? "rel" ≠ some ""

def isCanonicalSpan (attrs : Attrs) : Bool :=
  attrs.getString? "style" ≠ some "" && attrs.getString? "class" ≠ some ""

/-- Nothing is `null`, `false` or empty. -/
def isCanonicalImage (attrs : Attrs) : Bool := attrs.all fun entry => Writing.isSpoken entry.2

/-- A flag is set, and nothing else is `null`, `false` or empty. -/
def isCanonicalVideo (attrs : Attrs) : Bool :=
  attrs.all fun entry =>
    if entry.1 ∈ Reading.videoFlags then entry.2.asBool? = some true else Writing.isSpoken entry.2

/-- A string that is not empty. -/
def isFilled : Value → Bool
  | .str s => s ≠ ""
  | _ => false

def isCanonicalBinding (attrs : Attrs) : Bool :=
  attrs.all fun entry => (entry.1 = "value" && isFilled entry.2) || entry.1 = "defaultValue"

/-- A list starts at one, or says where it starts. -/
def isCanonicalStart (attrs : Attrs) : Bool :=
  attrs.all fun entry => entry.1 = "start" && (entry.2.asNat?).any (· ≠ 1)

/-- The attributes of a code block with a source text. -/
def isCanonicalCode (attrs : Attrs) (code : String) : Bool :=
  attrs.getString? "code" = some code &&
    attrs.all fun entry =>
      entry.1 = "code" || (entry.1 ∈ ["language", "filename", "meta"] && isFilled entry.2)

/-- One attribute names a slot, in the long form and with an empty value. -/
def isCanonicalSlot (attrs : Attrs) : Bool :=
  match attrs.filter fun entry => Reading.isSlotAttr entry.1 with
  | [(key, .str "")] =>
    Text.startsWith "v-slot:".toList key.toList && (Node.slotKey? key).isSome
  | _ => false

end Attrs

namespace Node

/-- Whether an element is read as a mark on the text in it. -/
def dissolves : Node → Bool
  | .element tag _ children =>
    match MarkKind.ofTag? tag with
    | some .link => areMarkedText children
    | some _ => true
    | none => false
  | _ => false

/-- Whether two neighbours would be read as one: two texts, or two elements of the same formatting. -/
def runsInto : Node → Node → Bool
  | .text _, .text _ => true
  | .element tag attrs children, .element tag' attrs' children' =>
    tag = tag' && attrs.same attrs' && dissolves (.element tag attrs children) &&
      dissolves (.element tag' attrs' children')
  | _, _ => false

/-- Whether formatting is interrupted by a single blank. -/
def isInterrupted : Node → Node → Node → Bool
  | .element tag attrs _, .text " ", .element tag' attrs' _ =>
    tag = tag' && attrs.same attrs' && tag ∈ joinableTags
  | _, _, _ => false

/-- No formatting in a line is interrupted by a single blank. -/
def isUninterrupted : List Node → Bool
  | left :: space :: right :: rest =>
    !isInterrupted left space right && isUninterrupted (space :: right :: rest)
  | _ => true

def isSourceText : List Node → Bool
  | [.text content] => content ≠ ""
  | _ => false

mutual

/-- Canonical markup inside a line. A comment stands outside of all formatting. -/
def isCanonicalInline [Surroundings] (formatted : Bool) : Node → Bool
  | .text content => content ≠ ""
  | .comment _ => !formatted
  | .element tag attrs children =>
    attrs.wellFormed &&
    match TagKind.ofTag tag with
    | .mark .code => attrs.all (fun entry => entry.1 = "language") && isSourceText children
    | .mark .link =>
      attrs.isCanonicalLink && !children.isEmpty &&
        if areMarkedText children then areCanonicalInline true children
        else attrs.isCanonicalRichLink && areCanonicalInline false children && isUninterrupted children
    | .mark _ => !children.isEmpty && areCanonicalInline true children
    | .lineBreak => attrs.isEmpty && children.isEmpty
    | .image => attrs.isCanonicalImage && children.isEmpty
    | .video => attrs.isCanonicalVideo && children.isEmpty
    | .span => attrs.isCanonicalSpan && areCanonicalInline false children && isUninterrupted children
    | .binding => attrs.isCanonicalBinding && children.isEmpty
    | .component | .template | .html => areCanonicalInline false children && isUninterrupted children
    | _ => false

def areCanonicalInline [Surroundings] (formatted : Bool) : List Node → Bool
  | [] => true
  | node :: rest =>
    isCanonicalInline formatted node && !rest.head?.any (runsInto node) &&
      areCanonicalInline formatted rest

end

/-- Canonical markup of a whole line. -/
def isCanonicalLine [Surroundings] (nodes : List Node) : Bool :=
    areCanonicalInline false nodes && isUninterrupted nodes

/-- A line among blocks is no layout. -/
def isCanonicalBareLine [Surroundings] (nodes : List Node) : Bool :=
  nodes.isEmpty || (isCanonicalLine nodes && !nodes.all Reading.isBlankText)

def isOneText : List Node → Bool
  | [.text _] => true
  | _ => false

/-- The source text of a code block, in the element that holds it. -/
def sourceOf? : List Node → Option String
  | [.element "code" [("__ignoreMap", .str "")] [.text code]] => some code
  | _ => none

def fillsSlot (node : Node) : Bool := node.slotName?.isSome

/-- The children of a component outside of its slots stand together. -/
def isBareTogether (nodes : List Node) : Bool :=
  ((nodes.dropWhile fillsSlot).dropWhile (!fillsSlot ·)).all fillsSlot

mutual

/-- Canonical markup on lines of its own. -/
def isCanonicalBlock [Surroundings] : Node → Bool
  | .text _ => false
  | .comment _ => true
  | .element tag attrs children =>
    attrs.wellFormed &&
    match TagKind.ofTag tag with
    | .paragraph => attrs.isEmpty && isCanonicalLine children
    | .heading _ => isCanonicalLine children
    | .bulletList => attrs.isEmpty && areCanonicalItems children
    | .orderedList => attrs.isCanonicalStart && areCanonicalItems children
    | .listItem | .blockquote => attrs.isEmpty && areCanonicalBlocks [] none children
    | .horizontalRule => attrs.isEmpty && children.isEmpty
    | .codeBlock => (sourceOf? children).any attrs.isCanonicalCode
    | .template => attrs.isCanonicalSlot && areCanonicalBlocks [] none children
    | .html => isOneText children
    | .video => attrs.isCanonicalVideo && children.isEmpty
    | .component => areCanonicalBlocks [] none children && isBareTogether children
    | _ => false

def areCanonicalItems [Surroundings] : List Node → Bool
  | [] => true
  | node :: rest => node.tag? = some "li" && isCanonicalBlock node && areCanonicalItems rest

/-- Canonical markup of siblings behind the inline nodes `run` and the node `before`: each maximal run of
inline nodes is a line, and each other node a block. A video on its own does not follow a line. -/
def areCanonicalBlocks [Surroundings] (run : List Node) (before : Option Node) : List Node → Bool
  | [] => isCanonicalBareLine run
  | node :: rest =>
    if isInlineBetween before node rest.head? then areCanonicalBlocks (run ++ [node]) (some node) rest
    else
      isCanonicalBareLine run && isCanonicalBlock node && (run.isEmpty || node.tag? ≠ some "video") &&
        areCanonicalBlocks [] (some node) rest

end

end Node

/-- Canonical markup of a whole document. Its frontmatter is anything but `null`. -/
def Tree.isCanonical [Surroundings] (tree : Tree) : Bool :=
  !tree.frontmatter.isNull && Node.areCanonicalBlocks [] none tree.nodes

end ComponentMarkdown
