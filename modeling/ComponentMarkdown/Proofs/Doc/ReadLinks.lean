import ComponentMarkdown.Proofs.Doc.ReadHeadings
import ComponentMarkdown.Proofs.Doc.SameReading

namespace ComponentMarkdown

namespace DocNode

def isLink : DocNode → Bool
  | link .. => true
  | _ => false

/-- How many nodes are links, in a list of nodes and everything in them. -/
def linkCount (docs : List DocNode) : Nat := (docs.flatMap inOrder).countP isLink

theorem linkCount_append (docs more : List DocNode) :
    linkCount (docs ++ more) = linkCount docs + linkCount more := by
  rw [linkCount, List.flatMap_append, List.countP_append, linkCount, linkCount]

theorem linkCount_around {node : DocNode} (noLink : node.isLink = false) :
    linkCount [node] = linkCount node.children := by
  rw [linkCount, List.flatMap_singleton, inOrder_eq, List.countP_cons_of_neg (by simp [noLink]), linkCount]

theorem linkCount_link {node : DocNode} (link : node.isLink = true) :
    linkCount [node] = linkCount node.children + 1 := by
  rw [linkCount, List.flatMap_singleton, inOrder_eq, List.countP_cons_of_pos link, linkCount]

theorem linkCount_plainText {docs : List DocNode} (plain : docs.all isPlainText = true) : linkCount docs = 0 := by
  induction docs with
  | nil => rfl
  | cons doc rest ih =>
    rw [List.all_cons, Bool.and_eq_true] at plain
    rw [← List.singleton_append, linkCount_append, ih plain.2]
    cases doc with
    | text | emoji => rfl
    | _ => cases plain.1

theorem linkCount_joinTexts (docs : List DocNode) : linkCount (Reading.joinTexts docs) = linkCount docs := by
  have listed : ∀ docs : List DocNode, linkCount docs = ((docs.flatMap inOrder).filter isLink).length := fun docs =>
    List.countP_eq_length_filter
  rw [listed, listed, List.filter_flatMap, List.filter_flatMap, joinTexts_eq]
  refine congrArg List.length (flatMap_mergeNeighbours (fun x y z merged => ?_) docs)
  obtain ⟨_, _, _, _, rfl, rfl, _, rfl⟩ := joined?_eq_some merged
  rfl

end DocNode

/-- Whether a node, if it is HTML, has no link in it. -/
def Node.htmlHasNoLinks : Node → Bool
  | node@(.element tag _ _) => tag ≠ "html" || node.inOrder.all (·.tag? ≠ some "a")
  | _ => true

mutual

/-- How many of the links that are read in a node are more than formatting. -/
def Node.nodeLinks : Node → Nat
  | .element tag _ children =>
    if (TagKind.ofTag tag).readsChildren then
      Node.nodeLinksOf children +
        if TagKind.ofTag tag = .mark .link ∧ Node.areMarkedText children = false then 1 else 0
    else 0
  | _ => 0

def Node.nodeLinksOf : List Node → Nat
  | [] => 0
  | node :: rest => node.nodeLinks + Node.nodeLinksOf rest

end

namespace Node

open DocNode (linkCount)

theorem nodeLinks_of_unread {tag : String} (unread : (TagKind.ofTag tag).readsChildren = false) (attrs : Attrs)
    (children : List Node) : (element tag attrs children).nodeLinks = 0 := by
  rw [nodeLinks, unread, if_neg Bool.false_ne_true]

theorem nodeLinks_of_noLink {tag : String} (read : (TagKind.ofTag tag).readsChildren = true)
    (noLink : TagKind.ofTag tag ≠ .mark .link) (attrs : Attrs) (children : List Node) :
    (element tag attrs children).nodeLinks = nodeLinksOf children := by
  rw [nodeLinks, if_pos read, if_neg (fun both => noLink both.1), Nat.add_zero]

theorem nodeLinksOf_append (nodes more : List Node) :
    nodeLinksOf (nodes ++ more) = nodeLinksOf nodes + nodeLinksOf more := by
  induction nodes with
  | nil => rw [List.nil_append, nodeLinksOf, Nat.zero_add]
  | cons node rest ih => rw [List.cons_append, nodeLinksOf, nodeLinksOf, ih, Nat.add_assoc]

theorem nodeLinksOf_filter (keep : Node → Bool) (nodes : List Node) :
    nodeLinksOf (nodes.filter keep) + nodeLinksOf (nodes.filter (!keep ·)) = nodeLinksOf nodes := by
  induction nodes with
  | nil => rfl
  | cons node rest ih =>
    cases kept : keep node with
    | true =>
      rw [List.filter_cons_of_pos kept, List.filter_cons_of_neg (by simp [kept]), nodeLinksOf, nodeLinksOf, ← ih,
        Nat.add_assoc]
    | false =>
      rw [List.filter_cons_of_neg (by simp [kept]), List.filter_cons_of_pos (by simp [kept]), nodeLinksOf,
        nodeLinksOf, ← ih, Nat.add_left_comm]

theorem nodeLinks_of_blankText {node : Node} (blank : Reading.isBlankText node = true) : node.nodeLinks = 0 := by
  cases node with
  | text => simp only [nodeLinks]
  | _ => cases blank

theorem nodeLinksOf_eq_zero {nodes : List Node} (none : ∀ node ∈ nodes, node.nodeLinks = 0) :
    nodeLinksOf nodes = 0 := by
  induction nodes with
  | nil => rw [nodeLinksOf]
  | cons node rest ih =>
    obtain ⟨here, below⟩ := List.forall_mem_cons.1 none
    rw [nodeLinksOf, here, ih below]

theorem nodeLinks_eq_zero {node : Node} (none : ∀ inner ∈ node.inOrder, inner.tag? ≠ some "a") :
    node.nodeLinks = 0 := by
  induction node using Node.induction with
  | text | comment => simp only [nodeLinks]
  | element tag attrs children ih =>
    rw [inOrder_element, List.forall_mem_cons] at none
    obtain ⟨here, below⟩ := none
    have noLink : TagKind.ofTag tag ≠ .mark .link := fun link =>
      here (congrArg some (TagKind.ofTag_eq_mark_iff.1 link))
    cases read : (TagKind.ofTag tag).readsChildren with
    | false => rw [nodeLinks_of_unread read]
    | true =>
      rw [nodeLinks_of_noLink read noLink]
      exact nodeLinksOf_eq_zero fun child member => ih child member fun inner inside =>
        below inner (List.mem_flatMap.2 ⟨child, member, inside⟩)

/-- The links of a node that are more than formatting become nodes of their own, inside a line and among
blocks. -/
structure ReadsLinks [Surroundings] (emoji : Bool) (node : Node) : Prop where
  inline (marks : List Mark) : Slugged.Gives (fun docs => linkCount docs = node.nodeLinks)
    ((node.reading emoji).inline marks)
  block : Slugged.Gives (fun doc => linkCount doc.toList = node.nodeLinks) (node.reading emoji).block

end Node

namespace Reading

open Node (nodeLinksOf nodeLinksOf_append)
open DocNode (linkCount linkCount_append linkCount_around linkCount_link linkCount_plainText linkCount_joinTexts)

section Lists

variable [Surroundings] {emoji : Bool} {nodes : List Node} (reads : ∀ node ∈ nodes, node.ReadsLinks emoji)

include reads

theorem inlines_readsLinks (marks : List Mark) : Slugged.Gives (fun docs => linkCount docs = nodeLinksOf nodes)
    (inlines marks (nodes.map (Node.reading emoji))) := by
  induction nodes with
  | nil => exact .pure rfl
  | cons node rest ih =>
    obtain ⟨here, below⟩ := List.forall_mem_cons.1 reads
    rw [List.map_cons, inlines]
    refine (here.inline marks).bind fun docs first => (ih below).bind fun tail later => .pure ?_
    rw [linkCount_append, first, later, nodeLinksOf]

theorem line_readsLinks : Slugged.Gives (fun docs => linkCount docs = nodeLinksOf nodes)
    (line (nodes.map (Node.reading emoji))) :=
  (inlines_readsLinks reads []).bind fun docs read => .pure (by rw [linkCount_joinTexts, read])

theorem paragraph_readsLinks : Slugged.Gives (fun docs => linkCount docs = nodeLinksOf nodes)
    (paragraph (nodes.map (Node.reading emoji))) := by
  rw [paragraph]
  split
  · rename_i blank
    refine .pure ?_
    simp only [List.all_map, Function.comp_def, Node.reading_node] at blank
    rw [Node.nodeLinksOf_eq_zero fun node member =>
      Node.nodeLinks_of_blankText (List.all_eq_true.1 blank node member)]
    rfl
  · exact (line_readsLinks reads).bind fun docs read => .pure (by rw [linkCount_around rfl]; exact read)

/-- What waits to be read as a line is read before the next block. -/
theorem blocksFrom_readsLinks {waiting : List Node} (inFront : ∀ node ∈ waiting, node.ReadsLinks emoji)
    (before : Option Node) : Slugged.Gives (fun docs => linkCount docs = nodeLinksOf (waiting ++ nodes))
      (blocksFrom (waiting.map (Node.reading emoji)) before (nodes.map (Node.reading emoji))) := by
  induction nodes generalizing waiting before with
  | nil =>
    rw [List.map_nil, blocksFrom, List.append_nil]
    exact paragraph_readsLinks inFront
  | cons node rest ih =>
    obtain ⟨here, below⟩ := List.forall_mem_cons.1 reads
    rw [List.map_cons, blocksFrom]
    split
    · have longer := ih below (List.forall_mem_append.2 ⟨inFront, List.forall_mem_singleton.2 here⟩)
        (some (node.reading emoji).node)
      rwa [List.map_append, List.map_singleton, List.append_assoc, List.singleton_append] at longer
    · refine (paragraph_readsLinks inFront).bind fun first line => here.block.bind fun block read => ?_
      refine (@ih below [] (List.forall_mem_nil _) _).bind fun tail later => .pure ?_
      rw [linkCount_append, linkCount_append, line, read, later, List.nil_append, nodeLinksOf_append, nodeLinksOf,
        Nat.add_assoc]

theorem blocks_readsLinks : Slugged.Gives (fun docs => linkCount docs = nodeLinksOf nodes)
    (blocks (nodes.map (Node.reading emoji))) :=
  @blocksFrom_readsLinks _ emoji nodes reads [] (List.forall_mem_nil _) none

theorem eachBlock_readsLinks : Slugged.Gives (fun docs => linkCount docs = nodeLinksOf nodes)
    (eachBlock (nodes.map (Node.reading emoji))) := by
  induction nodes with
  | nil => exact .pure rfl
  | cons node rest ih =>
    obtain ⟨here, below⟩ := List.forall_mem_cons.1 reads
    rw [List.map_cons, eachBlock]
    refine here.block.bind fun block read => (ih below).bind fun tail later => .pure ?_
    rw [linkCount_append, read, later, nodeLinksOf]

theorem listItems_readsLinks : Slugged.Gives (fun docs => linkCount docs = nodeLinksOf nodes)
    (listItems (nodes.map (Node.reading emoji))) := by
  induction nodes with
  | nil => exact .pure rfl
  | cons node rest ih =>
    obtain ⟨here, below⟩ := List.forall_mem_cons.1 reads
    have item : Slugged.Gives (fun docs => linkCount docs = node.nodeLinks) (listItem (node.reading emoji)) := by
      rw [listItem, Node.reading_node]
      split
      · exact here.block.bind fun block read => .pure read
      · split
        · rename_i blank
          exact .pure (Node.nodeLinks_of_blankText blank).symm
        · refine (blocks_readsLinks (List.forall_mem_singleton.2 here)).bind fun docs read => .pure ?_
          rw [linkCount_around rfl]
          exact read
    rw [List.map_cons, listItems]
    refine item.bind fun first read => (ih below).bind fun tail later => .pure ?_
    rw [linkCount_append, read, later, nodeLinksOf]

theorem slots_readsLinks : Slugged.Gives (fun docs => linkCount docs = nodeLinksOf nodes)
    (slots (nodes.map (Node.reading emoji))) := by
  have part : ∀ keep : Reading → Bool, (nodes.map (Node.reading emoji)).filter keep =
      (nodes.filter (keep ∘ Node.reading emoji)).map (Node.reading emoji) := fun keep => List.filter_map
  have readsPart : ∀ keep, ∀ node ∈ nodes.filter keep, node.ReadsLinks emoji :=
    fun keep node member => reads node (List.mem_of_mem_filter member)
  have parts : nodeLinksOf (nodes.filter (fillsSlot ∘ Node.reading emoji)) +
      nodeLinksOf (nodes.filter ((!fillsSlot ·) ∘ Node.reading emoji)) = nodeLinksOf nodes :=
    Node.nodeLinksOf_filter _ nodes
  simp only [slots, part]
  refine (eachBlock_readsLinks (readsPart _)).bind fun named slots => ?_
  split
  · rename_i none
    rw [List.isEmpty_iff, List.map_eq_nil_iff] at none
    rw [none, nodeLinksOf, Nat.add_zero] at parts
    exact .pure (slots.trans parts)
  · refine (blocks_readsLinks (readsPart _)).bind fun content bare => .pure ?_
    generalize (List.takeWhile _ _).length = place
    have slot : linkCount [.slot "default" [] true content] = linkCount content := linkCount_around rfl
    have both := linkCount_append (named.take place) (named.drop place)
    rw [List.take_append_drop] at both
    rw [← List.singleton_append, linkCount_append, linkCount_append, slot, bare, ← parts, ← slots, both]
    omega

end Lists

section Element

variable [Surroundings] {emoji : Bool} {tag : String} {attrs : Attrs} {children : List Node}
  (reads : (TagKind.ofTag tag).readsChildren = true → ∀ child ∈ children, child.ReadsLinks emoji)

include reads

theorem inlineElement_readsLinks (outside : isBlockTag tag = false) (marks : List Mark) :
    Slugged.Gives (fun docs => linkCount docs = (Node.element tag attrs children).nodeLinks)
      (inlineElement tag attrs (children.map (Node.reading emoji)) marks) := by
  have around : ∀ {doc : List DocNode → DocNode}, (TagKind.ofTag tag).readsChildren = true →
      TagKind.ofTag tag ≠ .mark .link → (∀ docs, (doc docs).children = docs) → (∀ docs, (doc docs).isLink = false) →
      Slugged.Gives (fun docs => linkCount docs = (Node.element tag attrs children).nodeLinks)
        (do return [doc (← line (children.map (Node.reading emoji)))]) := by
    intro doc read noLink inside kind
    refine (line_readsLinks (reads read)).bind fun docs same => .pure ?_
    rw [linkCount_around (kind docs), inside, same, Node.nodeLinks_of_noLink read noLink]
  have unread : ∀ {docs : List DocNode}, (TagKind.ofTag tag).readsChildren = false → linkCount docs = 0 →
      Slugged.Gives (fun docs => linkCount docs = (Node.element tag attrs children).nodeLinks) (pure docs) :=
    fun unread none => .pure (by rw [none, Node.nodeLinks_of_unread unread])
  rw [inlineElement]
  cases meaning : TagKind.ofTag tag with
  | mark kind =>
    cases kind with
    | code =>
      refine unread (by rw [meaning]; rfl) ?_
      rw [codeText]
      split <;> rfl
    | link =>
      have read : (TagKind.ofTag tag).readsChildren = true := by rw [meaning]; rfl
      simp only [marked, Node.map_node_map_reading]
      split
      · rename_i text
        rw [Node.nodeLinks, if_pos read, if_neg (by simp [text]), Nat.add_zero]
        exact inlines_readsLinks (reads read) _
      · rename_i more
        simp only [linkNode, bind_assoc, pure_bind]
        refine (line_readsLinks (reads read)).bind fun docs same => .pure ?_
        rw [linkCount_link rfl, Node.nodeLinks, if_pos read, if_pos ⟨meaning, by simpa using more⟩]
        exact congrArg (· + 1) same
    | bold | italic | strike =>
      have read : (TagKind.ofTag tag).readsChildren = true := by rw [meaning]; rfl
      rw [Node.nodeLinks_of_noLink read (by simp [meaning])]
      exact inlines_readsLinks (reads read) _
  | lineBreak | image | video | binding => exact unread (by rw [meaning]; rfl) rfl
  | span | component | template | html =>
    exact around (by rw [meaning]; rfl) (by simp [meaning]) (fun _ => rfl) fun _ => rfl
  | style => exact unread (by rw [meaning]; rfl) rfl
  | _ => simp [isBlockTag, meaning] at outside

theorem blockElement_readsLinks (html : TagKind.ofTag tag = .html → nodeLinksOf children = 0) :
    Slugged.Gives (fun doc => linkCount doc.toList = (Node.element tag attrs children).nodeLinks)
      (blockElement tag attrs (children.map (Node.reading emoji))) := by
  have lines := fun read => line_readsLinks (reads read)
  have items := fun read => listItems_readsLinks (reads read)
  have blocks := fun read => blocks_readsLinks (reads read)
  have around : ∀ {content : Slugged (List DocNode)} (doc : List DocNode → DocNode),
      (TagKind.ofTag tag).readsChildren = true → TagKind.ofTag tag ≠ .mark .link →
      ((TagKind.ofTag tag).readsChildren = true →
        Slugged.Gives (fun docs => linkCount docs = nodeLinksOf children) content) →
      (∀ docs, (doc docs).children = docs) → (∀ docs, (doc docs).isLink = false) →
      Slugged.Gives (fun doc => linkCount doc.toList = (Node.element tag attrs children).nodeLinks)
        (do return some (doc (← content))) := by
    intro content doc read noLink counts inside kind
    refine (counts read).bind fun docs same => .pure ?_
    rw [Option.toList_some, linkCount_around (kind docs), inside, same, Node.nodeLinks_of_noLink read noLink]
  have unread : ∀ {doc : Option DocNode}, (TagKind.ofTag tag).readsChildren = false → linkCount doc.toList = 0 →
      Slugged.Gives (fun doc => linkCount doc.toList = (Node.element tag attrs children).nodeLinks) (pure doc) :=
    fun unread none => .pure (by rw [none, Node.nodeLinks_of_unread unread])
  simp only [blockElement, Node.map_node_map_reading]
  cases meaning : TagKind.ofTag tag with
  | paragraph => exact around _ (by rw [meaning]; rfl) (by simp [meaning]) lines (fun _ => rfl) fun _ => rfl
  | heading level =>
    refine (Slugged.Gives.any _).bind fun id _ => ?_
    exact around (.heading level id) (by rw [meaning]; rfl) (by simp [meaning]) lines (fun _ => rfl) fun _ => rfl
  | bulletList | orderedList =>
    exact around _ (by rw [meaning]; rfl) (by simp [meaning]) items (fun _ => rfl) fun _ => rfl
  | listItem | blockquote =>
    exact around _ (by rw [meaning]; rfl) (by simp [meaning]) blocks (fun _ => rfl) fun _ => rfl
  | template =>
    simp only [slot, bind_assoc, pure_bind]
    exact around (.slot _ _ false) (by rw [meaning]; rfl) (by simp [meaning]) blocks (fun _ => rfl) fun _ => rfl
  | component =>
    refine around _ (by rw [meaning]; rfl) (by simp [meaning]) (fun read => ?_) (fun _ => rfl) fun _ => rfl
    exact slots_readsLinks (reads read)
  | html =>
    refine .pure ?_
    rw [Node.nodeLinks_of_noLink (by rw [meaning]; rfl) (by simp [meaning]), html meaning]
    rfl
  | codeBlock =>
    refine unread (by rw [meaning]; rfl) ?_
    rw [Option.toList_some, codeBlock, linkCount_around rfl]
    exact linkCount_plainText (by simp only [DocNode.children]; split <;> rfl)
  | horizontalRule | style => exact unread (by rw [meaning]; rfl) rfl
  | lineBreak | image | video | span | binding | mark kind =>
    have outside : isBlockTag tag = false := by rw [isBlockTag, meaning]
    refine (inlineElement_readsLinks reads outside []).bind fun docs read => .pure ?_
    rw [Option.toList_some, linkCount_around rfl]
    exact (linkCount_joinTexts docs).trans read

end Element

end Reading

namespace Node

theorem noLinks_of_htmlHasNoLinks {attrs : Attrs} {children : List Node}
    (html : (element "html" attrs children).htmlHasNoLinks = true) :
    ∀ child ∈ children, ∀ inner ∈ child.inOrder, inner.tag? ≠ some "a" := by
  have none : ∀ inner ∈ (element "html" attrs children).inOrder, inner.tag? ≠ some "a" := by
    simpa [htmlHasNoLinks] using html
  rw [inOrder_element, List.forall_mem_cons] at none
  exact fun child member inner inside => none.2 inner (List.mem_flatMap.2 ⟨child, member, inside⟩)

/-- What is inside of HTML on lines of its own is not read, and counts for nothing if there are no links in it. -/
theorem readsLinks_element [Surroundings] {emoji : Bool} {tag : String} {children : List Node}
    (reads : (TagKind.ofTag tag).readsChildren = true → ∀ child ∈ children, child.ReadsLinks emoji)
    (html : TagKind.ofTag tag = .html → nodeLinksOf children = 0) (attrs : Attrs) :
    (element tag attrs children).ReadsLinks emoji where
  inline marks := by
    rw [reading_element, Reading.ofElement]
    cases inside : Reading.isBlockTag tag with
    | true => exact (Reading.blockElement_readsLinks reads html).bind fun doc read => .pure read
    | false => exact Reading.inlineElement_readsLinks reads inside marks
  block := by
    rw [block_element]
    exact Reading.blockElement_readsLinks reads html

theorem readsLinks_text [Surroundings] (emoji : Bool) (content : String) : (text content).ReadsLinks emoji where
  inline marks := by
    rw [reading]
    refine .pure ((DocNode.linkCount_plainText ?_).trans (by simp only [nodeLinks]))
    exact (Reading.textNodes_plainText emoji content marks).1
  block := by
    rw [reading]
    exact .pure (by simp only [nodeLinks]; rfl)

theorem readsLinks_comment [Surroundings] (emoji : Bool) (content : String) :
    (comment content).ReadsLinks emoji where
  inline marks := by
    rw [reading]
    exact .pure (by simp only [nodeLinks]; rfl)
  block := by
    rw [reading]
    exact .pure (by simp only [nodeLinks]; rfl)

theorem readsLinks [Surroundings] (emoji : Bool) {node : Node}
    (html : ∀ inner ∈ node.inOrder, inner.htmlHasNoLinks = true) : node.ReadsLinks emoji := by
  induction node using Node.induction with
  | text content => exact readsLinks_text emoji content
  | comment content => exact readsLinks_comment emoji content
  | element tag attrs children ih =>
    rw [inOrder_element, List.forall_mem_cons] at html
    obtain ⟨here, below⟩ := html
    refine readsLinks_element (fun _ child member => ih child member fun inner inside =>
      below inner (List.mem_flatMap.2 ⟨child, member, inside⟩)) (fun meaning => ?_) attrs
    obtain rfl : tag = "html" := TagKind.tag_eq meaning rfl (by decide)
    exact nodeLinksOf_eq_zero fun child member => nodeLinks_eq_zero (noLinks_of_htmlHasNoLinks here child member)

end Node

namespace Doc

/-- The links of a document that are nodes of their own are the links of the tree that are more than formatting. -/
theorem linkCount_ofTree [Surroundings] {tree : Tree} {emoji : Bool}
    (reads : ∀ node ∈ tree.nodes, node.ReadsLinks emoji) :
    DocNode.linkCount (ofTree tree emoji).content = Node.nodeLinksOf tree.nodes := by
  obtain ⟨data, error, first⟩ := frontmatterNode_eq tree
  have front : DocNode.linkCount [.frontmatter data error tree.metadata] = 0 := rfl
  rw [ofTree_eq, first, ← List.singleton_append, DocNode.linkCount_append, front, Nat.zero_add]
  exact Reading.blocks_readsLinks reads .empty

end Doc

end ComponentMarkdown
