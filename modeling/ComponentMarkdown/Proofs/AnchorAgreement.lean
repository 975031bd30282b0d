import ComponentMarkdown.Platform
import ComponentMarkdown.Proofs.AnchorUniqueness
import Mathlib.Data.List.Flatten

namespace ComponentMarkdown

open SlugRegistry (baseOf Exchanges Unrelated)

namespace DocNode

/-- The headings of a component can be taken in document order, if none is related to those that overtake it. -/
theorem exchanges_of_overtakenAmong {children : List DocNode}
    (apart : ∀ pair ∈ overtakenAmong children, Unrelated (baseOf pair.1.text) (baseOf pair.2.text)) :
    Exchanges ((withLast isDefaultSlot children).flatMap anchors) (children.flatMap anchors) := by
  induction children with
  | nil => exact .refl _
  | cons child rest ih =>
    rw [overtakenAmong, List.forall_mem_append] at apart
    obtain ⟨here, below⟩ := apart
    have later := ih below
    rw [withLast, List.flatMap_append] at later ⊢
    rw [List.flatMap_cons]
    by_cases last : child.isDefaultSlot = true
    · rw [List.filter_cons_of_neg (by simp [last]), List.filter_cons_of_pos last, List.flatMap_cons,
        ← List.append_assoc]
      have first : Exchanges ((rest.filter (!isDefaultSlot ·)).flatMap anchors ++ child.anchors)
          (child.anchors ++ (rest.filter (!isDefaultSlot ·)).flatMap anchors) := by
        refine .swap fun other behind anchor inside => ?_
        rw [if_pos last] at here
        exact (here (anchor, other)
          (List.mem_flatMap.2 ⟨anchor, inside, List.mem_map.2 ⟨other, behind, rfl⟩⟩)).symm
      have moved := first.append (Exchanges.refl ((rest.filter isDefaultSlot).flatMap anchors))
      rw [List.append_assoc child.anchors] at moved
      exact moved.trans ((Exchanges.refl child.anchors).append later)
    · rw [List.filter_cons_of_pos (by simp [last]), List.filter_cons_of_neg last,
        List.flatMap_cons, List.append_assoc]
      exact (Exchanges.refl child.anchors).append later

theorem exchanges_flatMap {nodes : List DocNode} {f g : DocNode → List Anchor}
    (each : ∀ node ∈ nodes, Exchanges (f node) (g node)) : Exchanges (nodes.flatMap f) (nodes.flatMap g) := by
  induction nodes with
  | nil => exact .refl _
  | cons node rest ih =>
    obtain ⟨here, below⟩ := List.forall_mem_cons.1 each
    rw [List.flatMap_cons, List.flatMap_cons]
    exact here.append (ih below)

theorem exchanges_readAnchors {node : DocNode}
    (apart : ∀ pair ∈ node.inOrder.flatMap overtaken, Unrelated (baseOf pair.1.text) (baseOf pair.2.text)) :
    Exchanges node.readAnchors node.anchors := by
  induction node using induction with
  | step node ih =>
    rw [inOrder_eq, List.flatMap_cons, List.forall_mem_append] at apart
    obtain ⟨here, below⟩ := apart
    have inside : Exchanges (node.readOrder.flatMap readAnchors) (node.readOrder.flatMap anchors) := by
      refine exchanges_flatMap fun child member => ?_
      have child_mem := node.readOrder_perm.mem_iff.1 member
      refine ih child child_mem fun pair found => below pair ?_
      rw [List.flatMap_assoc]
      exact List.mem_flatMap.2 ⟨child, child_mem, found⟩
    have ordered : Exchanges (node.readOrder.flatMap anchors) (node.children.flatMap anchors) := by
      cases node
      case element tag props children => exact exchanges_of_overtakenAmong here
      all_goals exact .refl _
    rw [readAnchors_eq, anchors_eq]
    exact (Exchanges.refl _).append (inside.trans ordered)

theorem mem_readAnchors_iff {nodes : List DocNode} {anchor : Anchor} :
    anchor ∈ nodes.flatMap readAnchors ↔ anchor ∈ nodes.flatMap anchors :=
  (List.Perm.flatMap_left nodes fun node _ => node.readAnchors_perm).mem_iff

/-- A heading that is overtaken stands in front in the document and comes later in reading. -/
theorem sublists_of_overtakenAmong {children : List DocNode} {pair : Anchor × Anchor}
    (found : pair ∈ overtakenAmong children) :
    [pair.1, pair.2].Sublist (children.flatMap anchors) ∧
      [pair.2, pair.1].Sublist ((withLast isDefaultSlot children).flatMap readAnchors) := by
  induction children with
  | nil => cases found
  | cons child rest ih =>
    rw [overtakenAmong, List.mem_append] at found
    rcases found with here | below
    · by_cases last : child.isDefaultSlot = true
      · rw [if_pos last] at here
        obtain ⟨anchor, inside, here⟩ := List.mem_flatMap.1 here
        obtain ⟨other, behind, rfl⟩ := List.mem_map.1 here
        have kept : other ∈ rest.flatMap anchors := (List.filter_sublist.flatMap anchors).subset behind
        have read : other ∈ (rest.filter (!isDefaultSlot ·)).flatMap readAnchors := mem_readAnchors_iff.2 behind
        have readLast : anchor ∈ (child :: rest.filter isDefaultSlot).flatMap readAnchors := by
          rw [List.flatMap_cons]
          exact List.mem_append_left _ (child.readAnchors_perm.mem_iff.2 inside)
        constructor
        · rw [List.flatMap_cons]
          exact (List.singleton_sublist.2 inside).append (List.singleton_sublist.2 kept)
        · rw [withLast, List.filter_cons_of_neg (by simp [last]), List.filter_cons_of_pos last, List.flatMap_append]
          exact (List.singleton_sublist.2 read).append (List.singleton_sublist.2 readLast)
      · rw [if_neg last] at here
        cases here
    · obtain ⟨first, second⟩ := ih below
      have fewer : (withLast isDefaultSlot rest).Sublist (withLast isDefaultSlot (child :: rest)) :=
        ((List.sublist_cons_self child rest).filter _).append ((List.sublist_cons_self child rest).filter _)
      exact ⟨first.trans ((List.sublist_cons_self child rest).flatMap anchors),
        second.trans (fewer.flatMap readAnchors)⟩

theorem sublists_of_overtaken {node : DocNode} {pair : Anchor × Anchor}
    (found : pair ∈ node.inOrder.flatMap overtaken) :
    [pair.1, pair.2].Sublist node.anchors ∧ [pair.2, pair.1].Sublist node.readAnchors := by
  induction node using induction with
  | step node ih =>
    rw [inOrder_eq, List.flatMap_cons, List.mem_append] at found
    rw [anchors_eq, readAnchors_eq]
    have both : [pair.1, pair.2].Sublist (node.children.flatMap anchors) ∧
        [pair.2, pair.1].Sublist (node.readOrder.flatMap readAnchors) := by
      rcases found with here | below
      · cases node
        case element tag props children => exact sublists_of_overtakenAmong here
        all_goals cases here
      · rw [List.flatMap_assoc] at below
        obtain ⟨child, member, inside⟩ := List.mem_flatMap.1 below
        obtain ⟨first, second⟩ := ih child member inside
        have one := List.singleton_sublist.2 member
        have read := List.singleton_sublist.2 (node.readOrder_perm.mem_iff.2 member)
        rw [← List.flatMap_singleton anchors child] at first
        rw [← List.flatMap_singleton readAnchors child] at second
        exact ⟨first.trans (one.flatMap anchors), second.trans (read.flatMap readAnchors)⟩
    exact ⟨both.1.trans (List.sublist_append_right _ _), both.2.trans (List.sublist_append_right _ _)⟩

theorem holdsPlainText_of_comesFromMarkup (node : DocNode) (markup : node.comesFromMarkup = true) :
    node.holdsPlainText = true := by
  cases node
  case heading level id children =>
    rw [comesFromMarkup, Bool.and_eq_true] at markup
    exact markup.2
  case codeBlock | unknown => exact markup
  all_goals rfl

theorem isTagged_of_comesFromMarkup (node : DocNode) (markup : node.comesFromMarkup = true) :
    node.isTagged TagKind.isHeading = true := by
  cases node
  case heading level id children =>
    rw [comesFromMarkup, Bool.and_eq_true] at markup
    exact markup.1
  all_goals rfl

/-- What comes from markup has heading elements for its headings only. -/
theorem headingSources_of_comesFromMarkup {node : DocNode} (markup : node.everywhere comesFromMarkup = true) :
    ∀ source ∈ node.headingSources TagKind.isHeading, source = none := by
  induction node using induction with
  | step node ih =>
    obtain ⟨here, below⟩ := everywhere_iff.1 markup
    have inside : ∀ source ∈ (node.children.map (headingSources TagKind.isHeading)).flatten, source = none := by
      intro source member
      rw [← List.flatMap_def] at member
      obtain ⟨child, listed, member⟩ := List.mem_flatMap.1 member
      exact ih child listed (below child listed) source member
    rw [headingSources_eq]
    cases node
    case heading level id children => exact List.forall_mem_cons.2 ⟨rfl, inside⟩
    case element | inlineElement =>
      rw [comesFromMarkup, Bool.not_eq_true'] at here
      simpa [headingSourcesWith, here] using inside
    case codeBlock | unknown => exact List.forall_mem_nil _
    all_goals exact inside

end DocNode

namespace Tree

/-- The ids of the heading elements of a tree, in document order. -/
def headingIds (tree : Tree) : List (Option String) :=
  (tree.nodes.flatMap (Node.headingAttrs TagKind.isHeading)).map fun attrs => attrs.getString? "id"

section Agreement

variable [Surroundings] {tree : Tree} (text : ∀ node ∈ tree.nodes.flatMap Node.inOrder, node.holdsOnlyText = true)
    (emoji : Bool)

include text

/-- The ids are issued in the order in which the headings are read. -/
theorem issued_readAnchors :
    SlugRegistry.empty.Issued ((Doc.ofTree tree emoji).content.flatMap DocNode.readAnchors) := by
  obtain ⟨issued, read, order⟩ := Doc.ofTree_headings tree emoji fun _ : True => text
  rwa [← Anchor.eq_of_parts (read.texts trivial) read.slugs]

/-- Both directions agree if and only if the ids could have been issued in document order. -/
theorem headingIds_eq_iff_issued :
    (tree.throughEditor emoji).headingIds = (Doc.ofTree tree emoji).headingIds.map some ↔
      SlugRegistry.empty.Issued (Doc.ofTree tree emoji).anchors := by
  obtain ⟨_, read, _⟩ := Doc.ofTree_headings tree emoji fun _ : True => text
  have markup := read.markup trivial
  have tagged : (Doc.ofTree tree emoji).everywhere (DocNode.isTagged TagKind.isHeading) = true :=
    Doc.everywhere_iff.2 fun node member =>
      DocNode.everywhere_mono DocNode.isTagged_of_comesFromMarkup (markup node member)
  obtain ⟨issued, ⟨slugs, builds, _, exact_⟩, order⟩ := Doc.toTree_headings (by decide) tagged
  obtain ⟨inOrder, texts⟩ := exact_ fun node member =>
    DocNode.everywhere_mono DocNode.holdsPlainText_of_comesFromMarkup (markup node member)
  have found := builds.found_eq fun source member => by
    obtain ⟨node, listed, inside⟩ := List.mem_flatMap.1 member
    exact DocNode.headingSources_of_comesFromMarkup (markup node listed) source inside
  have written : (tree.throughEditor emoji).headingIds = (issued.map Anchor.slug).map some := by
    rw [DocNode.foundIn] at found
    rw [throughEditor, headingIds, found, inOrder, List.map_map]
    rfl
  have injective : Function.Injective (List.map (@some String)) :=
    List.map_injective_iff.2 fun _ _ => Option.some.inj
  rw [written, Doc.headingIds, injective.eq_iff]
  constructor
  · intro same
    rwa [Doc.anchors, ← Anchor.eq_of_parts texts same]
  · intro issued'
    rw [order.slugs_eq issued' texts]

theorem headingIds_throughEditor :
    ((∀ pair ∈ (Doc.ofTree tree emoji).overtaken, Unrelated (baseOf pair.1.text) (baseOf pair.2.text)) →
        (tree.throughEditor emoji).headingIds = (Doc.ofTree tree emoji).headingIds.map some) ∧
      ((tree.throughEditor emoji).headingIds = (Doc.ofTree tree emoji).headingIds.map some →
        ∀ pair ∈ (Doc.ofTree tree emoji).overtaken, baseOf pair.1.text ≠ baseOf pair.2.text) := by
  have read := issued_readAnchors text emoji
  rw [headingIds_eq_iff_issued text emoji]
  simp only [Doc.overtaken, List.flatMap_assoc]
  constructor
  · intro apart
    have exchanged : Exchanges ((Doc.ofTree tree emoji).content.flatMap DocNode.readAnchors)
        (Doc.ofTree tree emoji).anchors :=
      DocNode.exchanges_flatMap fun node member => DocNode.exchanges_readAnchors fun pair found =>
        apart pair (List.mem_flatMap.2 ⟨node, member, found⟩)
    have issued := exchanged .empty []
    rw [List.append_nil, List.append_nil] at issued
    exact issued read
  · intro issued pair found same
    obtain ⟨node, member, inside⟩ := List.mem_flatMap.1 found
    obtain ⟨first, second⟩ := DocNode.sublists_of_overtaken inside
    have one := List.singleton_sublist.2 member
    rw [← List.flatMap_singleton DocNode.anchors node] at first
    rw [← List.flatMap_singleton DocNode.readAnchors node] at second
    have inDocument := issued.rising.sublist (first.trans (one.flatMap DocNode.anchors))
    have inReading := read.rising.sublist (second.trans (one.flatMap DocNode.readAnchors))
    obtain ⟨n, m, less, slug, slug'⟩ := List.rel_of_pairwise_cons inDocument List.mem_cons_self same
    obtain ⟨k, l, more, slug₂, slug₂'⟩ := List.rel_of_pairwise_cons inReading List.mem_cons_self same.symm
    rw [← same] at slug₂ slug₂'
    have first_eq : n = l := SlugRegistry.member_injective _ (slug.symm.trans slug₂')
    have second_eq : m = k := SlugRegistry.member_injective _ (slug'.symm.trans slug₂)
    omega

end Agreement

/-- A heading in front of a slot whose heading has another text, but the same as one further up. -/
theorem headingIds_throughEditor_page :
    letI : Surroundings := .platform
    let page : Tree :=
    .ofNodes [.element "h2" [] [.text "Intro"], .element "card" [] [.element "h2" [] [.text "More"],
      .element "template" [("v-slot:footer", .str "")]
        [.element "h3" [] [.text "Int", .element "em" [] [.text "ro"]]]]]
    (∀ node ∈ page.nodes.flatMap Node.inOrder, node.holdsOnlyText = true) ∧
      (page.throughEditor true).headingIds = [some "intro", some "more", some "intro-1"] := by
  let _ : Surroundings := .platform
  intro page
  have text : ∀ node ∈ page.nodes.flatMap Node.inOrder, node.holdsOnlyText = true := by
    simp only [page, ofNodes, List.flatMap_cons, List.flatMap_nil, Node.inOrder_element, Node.inOrder_text,
      List.append_nil, List.cons_append, List.nil_append, List.forall_mem_cons]
    decide
  refine ⟨text, ((headingIds_throughEditor text true).1 ?_).trans (by decide +kernel)⟩
  have overtaken : (Doc.ofTree page true).overtaken = [(⟨"More", "more"⟩, ⟨"Intro", "intro-1"⟩)] := by
    decide +kernel
  rw [overtaken, List.forall_mem_singleton]
  exact SlugRegistry.unrelated_of_not_prefix (by decide) (by decide)

/-- A heading in front of a slot that has a heading of the same text: each direction takes another one first. -/
theorem headingIds_of_overtaken :
    letI : Surroundings := .platform
    let page : Tree := .ofNodes [.element "card" [] [.element "h2" [] [.text "Intro"],
      .element "template" [("v-slot:footer", .str "")] [.element "h2" [] [.text "Intro"]]]]
    (∀ node ∈ page.nodes.flatMap Node.inOrder, node.holdsOnlyText = true) ∧
      (Doc.ofTree page true).headingIds = ["intro-1", "intro"] ∧
      (page.throughEditor true).headingIds = [some "intro", some "intro-1"] := by
  refine ⟨?_, by decide +kernel, by decide +kernel⟩
  decide

end Tree

end ComponentMarkdown
