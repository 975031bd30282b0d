import ComponentMarkdown.Proofs.Doc.Headings
import ComponentMarkdown.Proofs.Slugged

namespace ComponentMarkdown

/-- The tags of the elements that other nodes than headings and elements of the document are written as. -/
def Writing.ownTags : List String :=
  ["p", "ul", "ol", "li", "blockquote", "hr", "pre", "code", "template", "br", "img", "video", "a", "span",
    "binding", "strong", "em", "del"]

namespace DocNode

/-- Heading elements in the order of what they are written from: those of headings have anchors with the slugs,
and the other ones keep their attributes. -/
inductive Builds : List (Option Attrs) → List Attrs → List String → Prop
  | nil : Builds [] [] []
  | issued {sources found slugs} (slug : String) : Builds sources found slugs →
      Builds (none :: sources) ([("id", .str slug)] :: found) (slug :: slugs)
  | kept {sources found slugs} (props : Attrs) : Builds sources found slugs →
      Builds (some props :: sources) (props :: found) slugs

theorem Builds.append {sources more : List (Option Attrs)} {found found' : List Attrs} {slugs slugs' : List String}
    (first : Builds sources found slugs) (second : Builds more found' slugs') :
    Builds (sources ++ more) (found ++ found') (slugs ++ slugs') := by
  induction first with
  | nil => exact second
  | issued slug _ ih => exact .issued slug ih
  | kept props _ ih => exact .kept props ih

/-- Without elements that keep their attributes, heading elements have nothing but their anchors. -/
theorem Builds.found_eq {sources : List (Option Attrs)} {found : List Attrs} {slugs : List String}
    (builds : Builds sources found slugs) (headings : ∀ source ∈ sources, source = none) :
    found = slugs.map fun slug => [("id", .str slug)] := by
  induction builds with
  | nil => rfl
  | issued slug _ ih => rw [List.map_cons, ih (List.forall_mem_cons.1 headings).2]
  | kept props _ _ => exact absurd (headings _ List.mem_cons_self) (by simp)

def isPlainText : DocNode → Bool
  | text .. | emoji .. => true
  | _ => false

/-- Whether a node that is a heading, a code block or not known holds nothing but text. -/
def holdsPlainText : DocNode → Bool
  | heading _ _ children | codeBlock _ _ children | unknown _ _ children => children.all isPlainText
  | _ => true

theorem anchors_of_plainText {node : DocNode} (plain : node.isPlainText = true) : node.anchors = [] := by
  rw [anchors_eq]
  cases node with
  | text | emoji => rfl
  | _ => cases plain

theorem flatMap_anchors_of_plainText {nodes : List DocNode} (plain : nodes.all isPlainText = true) :
    nodes.flatMap anchors = [] :=
  List.flatMap_eq_nil_iff.2 fun node member => anchors_of_plainText (List.all_eq_true.1 plain node member)

/-- The heading elements of what nodes are written as, against the anchors that are issued meanwhile. -/
def Accounts (isHeading : String → Bool) (nodes : List DocNode) (issued : List Anchor)
    (found : List Attrs) : Prop :=
  ∃ slugs, Builds (nodes.flatMap (headingSources isHeading)) found slugs ∧ slugs.Perm (issued.map Anchor.slug) ∧
    ((∀ node ∈ nodes, node.everywhere holdsPlainText = true) →
      slugs = issued.map Anchor.slug ∧ issued.map Anchor.text = (nodes.flatMap anchors).map Anchor.text)

namespace Accounts

variable {isHeading : String → Bool} {nodes : List DocNode} {issued : List Anchor} {found : List Attrs}

theorem nil : Accounts isHeading [] [] [] := ⟨[], .nil, .refl _, fun _ => ⟨rfl, rfl⟩⟩

theorem append {more : List DocNode} {issued' : List Anchor} {found' : List Attrs}
    (first : Accounts isHeading nodes issued found) (second : Accounts isHeading more issued' found') :
    Accounts isHeading (nodes ++ more) (issued ++ issued') (found ++ found') := by
  obtain ⟨slugs, builds, perm, exact_⟩ := first
  obtain ⟨slugs', builds', perm', exact_'⟩ := second
  refine ⟨slugs ++ slugs', ?_, ?_, fun plain => ?_⟩
  · rw [List.flatMap_append]
    exact builds.append builds'
  · rw [List.map_append]
    exact perm.append perm'
  · obtain ⟨here, there⟩ := List.forall_mem_append.1 plain
    obtain ⟨same, texts⟩ := exact_ here
    obtain ⟨same', texts'⟩ := exact_' there
    simp only [List.map_append, List.flatMap_append, same, same', texts, texts', and_self]

/-- A node that is no heading and only stands around its children. -/
theorem around {node : DocNode} (content : Accounts isHeading node.children issued found)
    (noHeading : node.anchor? = none)
    (sources : ∀ below, headingSourcesWith isHeading node below = below.flatten) :
    Accounts isHeading [node] issued found := by
  obtain ⟨slugs, builds, perm, exact_⟩ := content
  refine ⟨slugs, ?_, perm, fun plain => ?_⟩
  · rwa [List.flatMap_singleton, headingSources_eq, sources, ← List.flatMap_def]
  · obtain ⟨_, below⟩ := everywhere_iff.1 (plain node List.mem_cons_self)
    rw [List.flatMap_singleton, anchors_eq, noHeading]
    exact exact_ below

/-- A node that is written without heading elements. -/
theorem leaf {node : DocNode} (sources : node.headingSources isHeading = []) (noHeading : node.anchor? = none)
    (inside : node.holdsPlainText = true → node.children.flatMap anchors = []) :
    Accounts isHeading [node] [] [] := by
  refine ⟨[], ?_, .refl _, fun plain => ⟨rfl, ?_⟩⟩
  · rw [List.flatMap_singleton, sources]
    exact .nil
  · rw [List.flatMap_singleton, anchors_eq, noHeading, inside (everywhere_iff.1 (plain node List.mem_cons_self)).1]
    rfl

/-- An element of the document keeps its attributes, which count if its tag is a heading's. -/
theorem element {node : DocNode} {tag : String} {props : Attrs}
    (content : Accounts isHeading node.children issued found) (noHeading : node.anchor? = none)
    (sources : ∀ below, headingSourcesWith isHeading node below =
      (if isHeading tag then [some props] else []) ++ below.flatten) :
    Accounts isHeading [node] issued ((if isHeading tag then [props] else []) ++ found) := by
  obtain ⟨slugs, builds, perm, exact_⟩ := content
  refine ⟨slugs, ?_, perm, fun plain => ?_⟩
  · rw [List.flatMap_singleton, headingSources_eq, sources, ← List.flatMap_def]
    split
    · exact .kept props builds
    · exact builds
  · obtain ⟨_, below⟩ := everywhere_iff.1 (plain node List.mem_cons_self)
    rw [List.flatMap_singleton, anchors_eq, noHeading]
    exact exact_ below

/-- A heading gets its anchor behind what is in it. -/
theorem heading {level : Nat} {id text slug : String} {children : List DocNode}
    (content : Accounts isHeading children issued found)
    (named : children.all isPlainText = true → text = writtenTexts children) :
    Accounts isHeading [.heading level id children] (issued ++ [⟨text, slug⟩]) ([("id", .str slug)] :: found) := by
  obtain ⟨slugs, builds, perm, exact_⟩ := content
  refine ⟨slug :: slugs, ?_, ?_, fun plain => ?_⟩
  · rw [List.flatMap_singleton, headingSources_eq]
    exact .issued slug builds
  · rw [List.map_append]
    exact (perm.cons slug).trans (List.perm_append_singleton _ _).symm
  · obtain ⟨here, below⟩ := everywhere_iff.1 (plain _ List.mem_cons_self)
    have inside := flatMap_anchors_of_plainText here
    obtain ⟨same, texts⟩ := exact_ below
    rw [inside, List.map_nil, List.map_eq_nil_iff] at texts
    rw [texts] at same ⊢
    refine ⟨by rw [same]; rfl, ?_⟩
    rw [List.flatMap_singleton, anchors_eq, named here]
    exact congrArg (fun below => (_ :: below).map Anchor.text) inside.symm

end Accounts

/-- The heading elements that nodes of markup have in them. -/
abbrev foundIn (isHeading : String → Bool) (nodes : List Node) : List Attrs :=
  nodes.flatMap (Node.headingAttrs isHeading)

/-- The headings of a node are accounted for, inside a line and among blocks. -/
structure KeepsHeadings [Surroundings] (isHeading : String → Bool) (node : DocNode) : Prop where
  inline : Slugged.Traces (fun issued items =>
    Accounts isHeading [node] issued (foundIn isHeading (items.map MarkedNode.node)))
    node.writing.inline
  block (outside : node.isInline = false) (followsInline : Bool) :
    Slugged.Traces (fun issued nodes => Accounts isHeading [node] issued (foundIn isHeading nodes))
      (node.writing.block followsInline)

section Lists

variable [Surroundings] {isHeading : String → Bool} {nodes : List DocNode}
    (keeps : ∀ node ∈ nodes, node.KeepsHeadings isHeading)

include keeps

theorem marked_keepsHeadings :
    Slugged.Traces
      (fun issued items => Accounts isHeading nodes issued (foundIn isHeading (items.map MarkedNode.node)))
      (Writing.marked (nodes.map writing)) := by
  induction nodes with
  | nil => exact .pure .nil
  | cons node rest ih =>
    obtain ⟨here, below⟩ := List.forall_mem_cons.1 keeps
    rw [List.map_cons, Writing.marked]
    refine here.inline.bind fun issued items first => (ih below).bind fun issued' tail later => .pure ?_
    rw [List.append_nil, List.map_append, foundIn, List.flatMap_append]
    exact first.append later

variable (plain : ∀ tag ∈ Writing.ownTags, isHeading tag = false)

include plain

theorem line_keepsHeadings :
    Slugged.Traces (fun issued content => Accounts isHeading nodes issued (foundIn isHeading content))
      (Writing.line (nodes.map writing)) := by
  have formatting : ∀ kind : MarkKind, isHeading kind.tag = false := fun kind =>
    plain kind.tag (by cases kind <;> decide)
  refine (marked_keepsHeadings keeps).bind fun issued items accounts => .pure ?_
  rw [List.append_nil, foundIn, MarkedNode.flatMap_line (Node.seesThroughFormatting_headingAttrs formatting)]
  exact accounts

/-- The anchors are those of what is written, of what waits to be written as a line, and of what is left. -/
theorem blocksFrom_keepsHeadings {front : List DocNode} {before : List Anchor} {done : List Node}
    (sofar : Accounts isHeading front before (foundIn isHeading done)) (waiting : List DocNode)
    (keepsWaiting : ∀ node ∈ waiting, node.KeepsHeadings isHeading) :
    Slugged.Traces (fun issued content =>
        Accounts isHeading (front ++ waiting ++ nodes) (before ++ issued) (foundIn isHeading content))
      (Writing.blocksFrom done (waiting.map writing) (nodes.map writing)) := by
  induction nodes generalizing front before done waiting with
  | nil =>
    rw [List.map_nil, Writing.blocksFrom]
    refine (line_keepsHeadings keepsWaiting plain).bind fun issued content accounts => .pure ?_
    rw [List.append_nil, List.append_nil, foundIn, List.flatMap_append]
    exact sofar.append accounts
  | cons node rest ih =>
    obtain ⟨here, below⟩ := List.forall_mem_cons.1 keeps
    rw [List.map_cons, Writing.blocksFrom, writing_node]
    split
    · have longer := ih below sofar (waiting ++ [node])
        (List.forall_mem_append.2 ⟨keepsWaiting, List.forall_mem_singleton.2 here⟩)
      rw [List.map_append, List.map_singleton] at longer
      exact longer.weaken fun issued content accounts => by
        simpa only [List.append_assoc, List.singleton_append] using accounts
    · rename_i outside
      refine (line_keepsHeadings keepsWaiting plain).bind fun issued content line => ?_
      refine (here.block (by simpa using outside) _).bind fun issued' block written => ?_
      have longer : Accounts isHeading (front ++ waiting ++ [node]) (before ++ issued ++ issued')
          (foundIn isHeading (done ++ content ++ block)) := by
        rw [foundIn, List.flatMap_append, List.flatMap_append]
        exact (sofar.append line).append written
      refine (ih below longer [] (by simp)).weaken fun issued'' content' accounts => ?_
      simpa only [List.append_assoc, List.append_nil, List.singleton_append] using accounts

theorem blocks_keepsHeadings :
    Slugged.Traces (fun issued content => Accounts isHeading nodes issued (foundIn isHeading content))
      (Writing.blocks (nodes.map writing)) :=
  @blocksFrom_keepsHeadings _ isHeading nodes keeps plain [] [] [] .nil [] (by simp)

end Lists

/-- Whether a heading is written with a tag that is a heading's. -/
def isTagged (isHeading : String → Bool) : DocNode → Bool
  | heading level _ _ => isHeading ("h" ++ toString level)
  | _ => true

section Node

variable [Surroundings] {isHeading : String → Bool} {node : DocNode}
    (keeps : ∀ child ∈ node.children, child.KeepsHeadings isHeading)
  (plain : ∀ tag ∈ Writing.ownTags, isHeading tag = false)

omit [Surroundings] in
theorem foundIn_element (tag : String) (attrs : Attrs) (content : List Node) :
    foundIn isHeading [.element tag attrs content] =
      (if isHeading tag then [attrs] else []) ++ foundIn isHeading content := by
  rw [foundIn, List.flatMap_singleton, Node.headingAttrs_element]

omit [Surroundings] in
include plain in
theorem foundIn_own {tag : String} (own : tag ∈ Writing.ownTags) (attrs : Attrs) (content : List Node) :
    foundIn isHeading [.element tag attrs content] = foundIn isHeading content := by
  rw [foundIn_element, plain tag own, if_neg (by simp), List.nil_append]

omit [Surroundings] in
theorem foundIn_text (content : String) : foundIn isHeading [.text content] = [] := by
  rw [foundIn, List.flatMap_singleton, Node.headingAttrs_text]

omit [Surroundings] in
theorem foundIn_comment (content : String) : foundIn isHeading [.comment content] = [] := by
  rw [foundIn, List.flatMap_singleton, Node.headingAttrs_comment]

/-- The text that a heading gets its anchor for, as far as the heading holds nothing but text. -/
theorem line_named (children : List DocNode) :
    Slugged.Gives (fun content => children.all isPlainText = true → Node.textOf content = writtenTexts children)
      (Writing.line (children.map writing)) := by
  by_cases text : children.all isPlainText = true
  · have keepsText : ∀ child ∈ children, child.KeepsText := by
      intro child member
      have plain := List.all_eq_true.1 text child member
      cases child with
      | text | emoji => exact keepsText _ rfl
      | _ => cases plain
    exact (line_keepsText keepsText).weaken fun content same _ => same
  · exact (Slugged.Gives.any _).weaken fun content _ yes => absurd yes text

include keeps plain

theorem blockOf_keepsHeadings (tagged : node.isTagged isHeading = true) (outside : node.isInline = false)
    (followsInline : Bool) :
    Slugged.Traces (fun issued nodes => Accounts isHeading [node] issued (foundIn isHeading nodes))
      (Writing.blockOf node (node.children.map writing) followsInline) := by
  have lines := line_keepsHeadings keeps plain
  have content := blocks_keepsHeadings keeps plain
  have wrapped : ∀ {tag : String} (attrs : Attrs), tag ∈ Writing.ownTags → node.anchor? = none →
      (∀ below, headingSourcesWith isHeading node below = below.flatten) →
      Slugged.Traces (fun issued nodes => Accounts isHeading [node] issued (foundIn isHeading nodes))
        (do return [.element tag attrs (← Writing.blocks (node.children.map writing))]) := by
    intro tag attrs own noHeading sources
    refine content.bind fun issued nodes accounts => .pure ?_
    rw [List.append_nil, foundIn_own plain own]
    exact accounts.around noHeading sources
  cases node
  case frontmatter => exact .pure (.leaf rfl rfl fun _ => rfl)
  case paragraph synthetic children =>
    refine lines.bind fun issued nodes accounts => .pure ?_
    rw [List.append_nil]
    split
    · exact accounts.around rfl fun _ => rfl
    · rw [foundIn_own plain (by decide)]
      exact accounts.around rfl fun _ => rfl
  case heading level id children =>
    refine (lines.and_gives (line_named children)).bind fun issued nodes ⟨accounts, named⟩ => ?_
    refine (Slugged.Traces.issue _).bind fun issued' slug single => .pure ?_
    rw [single, List.append_nil, foundIn_element, if_pos (by simpa [isTagged] using tagged)]
    exact accounts.heading named
  case bulletList | listItem | blockquote => exact wrapped _ (by decide) rfl fun _ => rfl
  case orderedList start children => exact wrapped _ (by decide) rfl fun _ => rfl
  case horizontalRule =>
    refine .pure ?_
    rw [foundIn_own plain (by decide)]
    exact .leaf rfl rfl fun _ => rfl
  case codeBlock info code children =>
    refine .pure ?_
    rw [Writing.codeBlock, foundIn_own plain (by decide), foundIn_own plain (by decide), foundIn_text]
    exact .leaf rfl rfl flatMap_anchors_of_plainText
  case element tag props children =>
    refine content.bind fun issued nodes accounts => .pure ?_
    rw [List.append_nil, foundIn_element]
    exact accounts.element rfl fun _ => rfl
  case slot name props synthetic children =>
    refine content.bind fun issued nodes accounts => ?_
    split
    · refine .pure ?_
      rw [List.append_nil]
      exact accounts.around rfl fun _ => rfl
    · refine .pure ?_
      rw [List.append_nil, foundIn_own plain (by decide)]
      exact accounts.around rfl fun _ => rfl
  case comment text =>
    refine .pure ?_
    rw [foundIn_comment]
    exact .leaf rfl rfl fun _ => rfl
  case unknown kind attrs children =>
    refine .pure ?_
    rw [foundIn_own plain (by decide), Writing.unknownText, foundIn_text]
    exact .leaf rfl rfl flatMap_anchors_of_plainText
  all_goals exact absurd outside (by simp [isInline])

theorem inlineOf_keepsHeadings (tagged : node.isTagged isHeading = true) :
    Slugged.Traces (fun issued items =>
      Accounts isHeading [node] issued (foundIn isHeading (items.map MarkedNode.node)))
      (Writing.inlineOf node (node.children.map writing)) := by
  have lines := line_keepsHeadings keeps plain
  have asBlock := blockOf_keepsHeadings keeps plain tagged
  have single : ∀ (marks : List Mark) (written : Node), foundIn isHeading [written] = [] →
      node.headingSources isHeading = [] → node.anchor? = none → node.children.flatMap anchors = [] →
      Slugged.Traces (fun issued items =>
        Accounts isHeading [node] issued (foundIn isHeading (items.map MarkedNode.node)))
        (pure [⟨marks, written⟩]) := by
    intro marks written none sources noHeading inside
    refine .pure ?_
    rw [List.map_singleton, none]
    exact .leaf sources noHeading fun _ => inside
  cases node
  case text | emoji => exact single _ _ (foundIn_text _) rfl rfl rfl
  case hardBreak | image | video | binding => exact single _ _ (foundIn_own plain (by decide) _ _) rfl rfl rfl
  case link | spanStyle =>
    refine lines.bind fun issued nodes accounts => .pure ?_
    rw [List.append_nil, List.map_singleton, foundIn_own plain (by decide)]
    exact accounts.around rfl fun _ => rfl
  case inlineElement tag props children marks =>
    refine lines.bind fun issued nodes accounts => .pure ?_
    rw [List.append_nil, List.map_singleton, foundIn_element]
    exact accounts.element rfl fun _ => rfl
  case comment => exact single _ _ (foundIn_comment _) rfl rfl rfl
  case unknown =>
    refine .pure ?_
    rw [List.map_singleton, Writing.unknownText, foundIn_text]
    exact .leaf rfl rfl flatMap_anchors_of_plainText
  all_goals
    refine (asBlock rfl false).bind fun issued nodes accounts => .pure ?_
    rw [List.append_nil, List.map_map]
    exact (congrArg (foundIn isHeading) (List.map_id nodes)).symm ▸ accounts

end Node

theorem keepsHeadings [Surroundings] {isHeading : String → Bool}
    (plain : ∀ tag ∈ Writing.ownTags, isHeading tag = false)
    {node : DocNode} (tagged : node.everywhere (isTagged isHeading) = true) : node.KeepsHeadings isHeading := by
  induction node using DocNode.induction with
  | step node ih =>
    obtain ⟨here, below⟩ := everywhere_iff.1 tagged
    have keeps : ∀ child ∈ node.children, child.KeepsHeadings isHeading := fun child member =>
      ih child member (below child member)
    refine ⟨?_, fun outside followsInline => ?_⟩
    · rw [writing_inline]
      exact inlineOf_keepsHeadings keeps plain here
    · rw [writing_block]
      exact blockOf_keepsHeadings keeps plain here outside followsInline

end DocNode

namespace Doc

/-- The heading elements of the markup of a document, against the anchors that are issued while it is written. -/
theorem toTree_headings [Surroundings] {isHeading : String → Bool}
    (plain : ∀ tag ∈ Writing.ownTags, isHeading tag = false)
    {doc : Doc} (tagged : doc.everywhere (DocNode.isTagged isHeading) = true) :
    ∃ issued, DocNode.Accounts isHeading doc.content issued (DocNode.foundIn isHeading doc.toTree.nodes) ∧
      SlugRegistry.empty.Issued issued := by
  have keeps : ∀ node ∈ doc.content, node.KeepsHeadings isHeading := fun node member =>
    DocNode.keepsHeadings plain (everywhere_iff.1 tagged node member)
  obtain ⟨issued, accounts, order, _⟩ := DocNode.blocks_keepsHeadings keeps plain .empty
  rw [toTree_nodes]
  exact ⟨issued, accounts, order⟩

end Doc

end ComponentMarkdown
