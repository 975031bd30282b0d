import ComponentMarkdown.Proofs.Doc.AttributeOrder
import ComponentMarkdown.Proofs.Doc.Editable
import ComponentMarkdown.Proofs.Doc.JoinedLines

namespace ComponentMarkdown

/-- An element that stands around others: a span, or a link, which may have an image in it. -/
inductive Frame where
  | span (attrs : Attrs)
  | link (pictured : Bool) (attrs : Attrs)
deriving Repr, Inhabited

/-- What is looked for in a line or on a page. A span, and a link with an image in it, is found where it begins. -/
inductive Leaf where
  | char (c : Char)
  | image (attrs : Attrs)
  | span
  | link
  | block
deriving Repr, Inhabited

/-- Something that is found, with the spans and links around it, the innermost first. -/
structure Found where
  leaf : Leaf
  frames : List Frame
deriving Repr, Inhabited

namespace Found

def isImage (found : Found) : Bool :=
  match found.leaf with
  | .image _ => true
  | _ => false

def under (outer : List Frame) (found : Found) : Found := { found with frames := found.frames ++ outer }

/-- The characters of a text. On a page, only what is more than text is looked for. -/
def ofText (page : Bool) (content : String) : List Found :=
  if page then [] else content.toList.map fun c => ⟨.char c, []⟩

/-- What is found in an element with the text `content`, given what is found in its children. Formatting and
components are looked through, and of code nothing is read but its text. A search through a line takes the blocks
in it as they are and looks through `html`. One through a page looks through blocks, but not through `html`, which
may stand there as a block, of which nothing is read but its text. -/
def around (page : Bool) (tag : String) (attrs : Attrs) (content : String) (inside : List Found) : List Found :=
  match TagKind.ofTag tag with
  | .span => (⟨.span, []⟩ :: inside).map (under [.span attrs])
  | .mark .link =>
    if inside.any isImage then (⟨.link, []⟩ :: inside).map (under [.link true attrs])
    else inside.map (under [.link false attrs])
  | .mark .code => ofText page content
  | .lineBreak | .video | .binding | .style => []
  | .mark _ | .component | .template => inside
  | .image => [⟨.image attrs, []⟩]
  | .html => if page then [] else inside
  | .horizontalRule | .codeBlock => if page then [] else [⟨.block, []⟩]
  | .paragraph | .heading _ | .bulletList | .orderedList | .listItem | .blockquote =>
    if page then inside else [⟨.block, []⟩]

end Found

namespace Node

mutual

/-- What is found in a node of a line or of a page, in document order. -/
def found (page : Bool) : Node → List Found
  | .text content => Found.ofText page content
  | .comment _ => []
  | .element tag attrs children => Found.around page tag attrs (textOf children) (foundIn page children)

def foundIn (page : Bool) : List Node → List Found
  | [] => []
  | node :: rest => node.found page ++ foundIn page rest

end

theorem foundIn_eq (page : Bool) (nodes : List Node) : foundIn page nodes = nodes.flatMap (found page) := by
  induction nodes with
  | nil => rw [foundIn, List.flatMap_nil]
  | cons node rest ih => rw [foundIn, ih, List.flatMap_cons]

@[simp]
theorem found_text (page : Bool) (content : String) : (text content).found page = Found.ofText page content := by
  rw [found]

@[simp]
theorem found_comment (page : Bool) (content : String) : (comment content).found page = [] := by
  rw [found]

theorem found_element (page : Bool) (tag : String) (attrs : Attrs) (children : List Node) :
    (element tag attrs children).found page =
      Found.around page tag attrs (textOf children) (children.flatMap (found page)) := by
  rw [found, foundIn_eq]

end Node

namespace Attrs

/-- A span is written with these attributes. They are those that it had if it says something, in the same order if
and only if its style and class are its last ones. -/
def SpanReturns (attrs attrs' : Attrs) : Prop :=
  attrs' = attrs.spanThroughEditor ∧
    (attrs.isCanonicalSpan = true → attrs'.Perm attrs ∧ (attrs' = attrs ↔ attrs.spanTail <:+ attrs.keys))

/-- A link with an image in it is written with these attributes. They are those that it had if it leads to a page of
the site, in the same order if and only if the ones that are for links are its first ones, with at most one more. -/
def LinkReturns [Surroundings] (attrs attrs' : Attrs) : Prop :=
  attrs' = attrs.linkThroughEditor ∧
    (attrs.IsRelativeLink → attrs'.Perm attrs ∧
      (attrs' = attrs ↔ attrs.linkHead <+: attrs ∧ attrs.length ≤ attrs.linkHead.length + 1))

/-- A link without an image is written with the attributes of a link or of a mark, in some order. -/
def TextLinkReturns [Surroundings] (attrs attrs' : Attrs) : Prop :=
  ∃ written, (written = attrs.linkThroughEditor ∨ written = LinkPolicy.markupAttrs (LinkPolicy.editorAttrs attrs)) ∧
    (attrs' = written ∨ attrs'.same written = true)

variable {attrs : Attrs} (valid : attrs.wellFormed = true)

include valid

theorem spanReturns : SpanReturns attrs attrs.spanThroughEditor :=
  have distinct := distinct_of_wellFormed valid
  ⟨rfl, fun canonical => ⟨span_perm distinct canonical, spanThroughEditor_eq_iff distinct canonical⟩⟩

theorem linkReturns [Surroundings] : LinkReturns attrs attrs.linkThroughEditor := by
  refine ⟨rfl, fun relative => ⟨?_, linkThroughEditor_eq_iff valid relative⟩⟩
  rw [linkThroughEditor_eq valid relative]
  exact (perm_linkHead (distinct_of_wellFormed valid)).symm

end Attrs

namespace Frame

/-- A span or link as it is written behind the editor. -/
def Returns [Surroundings] : Frame → Frame → Prop
  | span attrs, span attrs' => attrs.SpanReturns attrs'
  | link true attrs, link true attrs' => attrs.LinkReturns attrs'
  | link false attrs, link false attrs' => attrs.TextLinkReturns attrs'
  | _, _ => False

/-- The order in which a link without an image has its attributes does not count. -/
inductive Alike : Frame → Frame → Prop
  | refl (frame : Frame) : Alike frame frame
  | link {attrs attrs' : Attrs} : attrs.same attrs' = true → Alike (.link false attrs) (.link false attrs')

theorem Alike.trans (a b c : Frame) (first : a.Alike b) (second : b.Alike c) : a.Alike c := by
  cases first with
  | refl => exact second
  | link same =>
    cases second with
    | refl => exact .link same
    | link same' => exact .link (Attrs.same_trans same same')

theorem Returns.alike [Surroundings] (frame written other : Frame) (returns : frame.Returns written)
    (alike : other.Alike written) : frame.Returns other := by
  cases alike with
  | refl => exact returns
  | link same =>
    cases frame with
    | span => exact returns.elim
    | link pictured attrs =>
      cases pictured with
      | true => exact returns.elim
      | false =>
        obtain ⟨written, whole, rfl | same'⟩ := returns
        · exact ⟨_, whole, Or.inr same⟩
        · exact ⟨written, whole, Or.inr (Attrs.same_trans same same')⟩

/-- The links that a mark adds to those around what it marks. What is in code is in no link inside of the code. -/
def withMark [Surroundings] (frames : List Frame) (mark : Mark) : List Frame :=
  match mark.kind with
  | .link => frames ++ [.link false (LinkPolicy.markupAttrs mark.attrs)]
  | .code => []
  | _ => frames

/-- The links that the marks of a text are written as. -/
def ofMarks [Surroundings] (marks : List Mark) : List Frame := marks.foldl withMark []

section Marks

variable [Surroundings] {marks marks' : List Mark}

theorem ofMarks_concat (marks : List Mark) (mark : Mark) :
    ofMarks (marks ++ [mark]) = withMark (ofMarks marks) mark := by
  rw [ofMarks, List.foldl_concat, ofMarks]

theorem foldl_withMark (noCode : ∀ mark ∈ marks, mark.kind ≠ .code) (frames : List Frame) :
    marks.foldl withMark frames = frames ++ ofMarks marks := by
  induction marks generalizing frames with
  | nil => exact (List.append_nil frames).symm
  | cons mark rest ih =>
    obtain ⟨here, below⟩ := List.forall_mem_cons.1 noCode
    have first : ∀ frames, withMark frames mark = frames ++ withMark [] mark := by
      intro frames
      cases kind : mark.kind <;> simp_all [withMark]
    rw [ofMarks, List.foldl_cons, List.foldl_cons, ih below, ih below, first, List.append_assoc]

theorem ofMarks_cons (noCode : ∀ mark ∈ marks, mark.kind ≠ .code) (mark : Mark) :
    ofMarks (mark :: marks) = ofMarks [mark] ++ ofMarks marks := foldl_withMark noCode _

theorem ofMarks_eq_nil (noLink : ∀ mark ∈ marks, mark.kind ≠ .link) : ofMarks marks = [] := by
  induction marks using List.reverseRecOn with
  | nil => rfl
  | append_singleton front mark ih =>
    rw [List.forall_mem_append, List.forall_mem_singleton] at noLink
    rw [ofMarks_concat, ih noLink.1, withMark]
    cases kind : mark.kind <;> simp_all

theorem withMark_alike {frames frames' : List Frame} {mark mark' : Mark} (valid : mark.wellFormed = true)
    (valid' : mark'.wellFormed = true) (same : mark.same mark' = true) (alike : List.Forall₂ Alike frames frames') :
    List.Forall₂ Alike (withMark frames mark) (withMark frames' mark') := by
  obtain ⟨kind, attrs⟩ := Mark.same_iff.1 same
  rw [withMark, withMark, kind]
  split
  · exact List.rel_append alike (.cons (.link (LinkPolicy.markupAttrs_same valid valid' attrs)) .nil)
  · exact .nil
  · exact alike

theorem ofMarks_alike (valid : marks.all Mark.wellFormed = true) (valid' : marks'.all Mark.wellFormed = true)
    (same : Mark.sameList marks marks' = true) : List.Forall₂ Alike (ofMarks marks) (ofMarks marks') := by
  have run : ∀ {frames frames' : List Frame}, List.Forall₂ Alike frames frames' →
      List.Forall₂ Alike (marks.foldl withMark frames) (marks'.foldl withMark frames') := by
    rw [List.all_eq_true] at valid valid'
    rw [Mark.sameList_iff] at same
    induction same with
    | nil => exact id
    | cons first _ ih =>
      rw [List.forall_mem_cons] at valid valid'
      exact fun alike => ih valid.2 valid'.2 (withMark_alike valid.1 valid'.1 first alike)
  exact run .nil

end Marks

end Frame

/-- An image is written without the attributes that say nothing. -/
def Leaf.back : Leaf → Leaf
  | image attrs => image (Writing.imageAttrs attrs)
  | leaf => leaf

namespace Found

/-- The same thing is found again behind the editor, in the spans and links that it was in. -/
structure Returns [Surroundings] (found found' : Found) : Prop where
  leaf : found'.leaf = found.leaf.back
  frames : List.Forall₂ Frame.Returns found.frames found'.frames

structure Alike (found found' : Found) : Prop where
  leaf : found.leaf = found'.leaf
  frames : List.Forall₂ Frame.Alike found.frames found'.frames

theorem Alike.refl (found : Found) : found.Alike found := ⟨rfl, List.forall₂_same.2 fun frame _ => .refl frame⟩

theorem Alike.trans (a b c : Found) (first : a.Alike b) (second : b.Alike c) : a.Alike c :=
  ⟨first.leaf.trans second.leaf, forall₂_trans Frame.Alike.trans first.frames second.frames⟩

theorem Returns.alike [Surroundings] (found written other : Found) (returns : found.Returns written)
    (alike : other.Alike written) : found.Returns other :=
  ⟨alike.leaf.trans returns.leaf, forall₂_trans (S := flip Frame.Alike) Frame.Returns.alike returns.frames
    alike.frames.flip⟩

variable {page : Bool} {found found' : List Found} {outer outer' : List Frame}

theorem map_under_nil (found : List Found) : found.map (under []) = found := by
  have none : under [] = id := by
    funext one
    rw [under, List.append_nil, id]
  rw [none, List.map_id]

theorem map_under_under (inner outer : List Frame) (found : List Found) :
    (found.map (under inner)).map (under outer) = found.map (under (inner ++ outer)) := by
  rw [List.map_map]
  refine List.map_congr_left fun one _ => ?_
  simp only [Function.comp_apply, under, List.append_assoc]

theorem map_under_returns [Surroundings] (frames : List.Forall₂ Frame.Returns outer outer')
    (returns : List.Forall₂ Returns found found') :
    List.Forall₂ Returns (found.map (under outer)) (found'.map (under outer')) :=
  List.forall₂_map_left_iff.2 (List.forall₂_map_right_iff.2
    (returns.imp fun _ _ one => ⟨one.leaf, List.rel_append one.frames frames⟩))

theorem map_under_alike (frames : List.Forall₂ Frame.Alike outer outer') (alike : List.Forall₂ Alike found found') :
    List.Forall₂ Alike (found.map (under outer)) (found'.map (under outer')) :=
  List.forall₂_map_left_iff.2 (List.forall₂_map_right_iff.2
    (alike.imp fun _ _ one => ⟨one.leaf, List.rel_append one.frames frames⟩))

theorem any_isImage_eq {R : Found → Found → Prop} (same : ∀ a b, R a b → a.isImage = b.isImage)
    (related : List.Forall₂ R found found') : found.any isImage = found'.any isImage := by
  induction related with
  | nil => rfl
  | cons first _ ih => rw [List.any_cons, List.any_cons, same _ _ first, ih]

theorem Returns.isImage [Surroundings] (found found' : Found) (returns : found.Returns found') :
    found.isImage = found'.isImage := by
  rw [Found.isImage, Found.isImage, returns.leaf]
  cases found.leaf <;> rfl

theorem Alike.isImage (found found' : Found) (alike : found.Alike found') : found.isImage = found'.isImage := by
  rw [Found.isImage, Found.isImage, alike.leaf]

theorem isImage_ofText (page : Bool) (content : String) : (ofText page content).any isImage = false := by
  cases page <;> simp [ofText, isImage]

theorem ofText_append (page : Bool) (content next : String) :
    ofText page (content ++ next) = ofText page content ++ ofText page next := by
  cases page <;> simp [ofText]

theorem ofText_textOf (page : Bool) (nodes : List Node) :
    ofText page (Node.textOf nodes) = nodes.flatMap fun node => ofText page node.textContent := by
  induction nodes with
  | nil => cases page <;> simp [ofText]
  | cons node rest ih => rw [Node.textOf_cons, ofText_append, ih, List.flatMap_cons]

theorem ofText_returns [Surroundings] (page : Bool) (content : String) :
    List.Forall₂ Returns (ofText page content) (ofText page content) := by
  refine List.forall₂_same.2 fun one member => ?_
  cases page with
  | true => cases member
  | false =>
    obtain ⟨c, _, rfl⟩ := List.mem_map.1 member
    exact ⟨rfl, .nil⟩

/-- A link without an image is a frame around everything in it. -/
theorem around_link {inside : List Found} (bare : inside.any isImage = false) (attrs : Attrs) (content : String) :
    around page "a" attrs content inside = inside.map (under [.link false attrs]) := by
  have whole : around page "a" attrs content inside =
    if inside.any isImage then (⟨.link, []⟩ :: inside).map (under [.link true attrs])
    else inside.map (under [.link false attrs]) := rfl
  rw [whole, bare]
  rfl

/-- Formatting is looked through. -/
theorem around_formatting {kind : MarkKind} (plain : kind ≠ .code ∧ kind ≠ .link) (attrs : Attrs) (content : String)
    (inside : List Found) : around page kind.tag attrs content inside = inside := by
  cases kind with
  | code => exact absurd rfl plain.1
  | link => exact absurd rfl plain.2
  | _ => rfl

/-- In a line, a block is found itself. -/
theorem around_block {tag : String} (block : Reading.isBlockTag tag = true) (attrs : Attrs) (content : String)
    (inside : List Found) : around false tag attrs content inside = [⟨.block, []⟩] := by
  unfold Reading.isBlockTag at block
  unfold around
  split at block <;> simp_all

end Found

namespace MarkedNode

variable {page : Bool}

/-- A node of a line whose marks are not yet elements. In its links there is no image. -/
structure Fits (page : Bool) (item : MarkedNode) : Prop where
  wellFormed : item.wellFormed = true
  bare : (∃ mark ∈ item.marks, mark.kind = .link) → (item.node.found page).any Found.isImage = false

theorem Fits.dropOuter {item : MarkedNode} (fits : item.Fits page) : item.dropOuter.Fits page :=
  ⟨dropOuter_wellFormed fits.wellFormed, fun ⟨mark, member, link⟩ =>
    fits.bare ⟨mark, (List.dropLast_prefix _).subset member, link⟩⟩

theorem Fits.text {marks : List Mark} (valid : marks.all Mark.wellFormed = true) (content : String) :
    Fits page ⟨marks, .text content⟩ := by
  refine ⟨valid, fun _ => ?_⟩
  rw [Node.found_text]
  exact Found.isImage_ofText page content

section Alone

variable [Surroundings]

/-- The node inside the elements of its own marks. -/
def alone (item : MarkedNode) : Node := item.marks.foldl (fun node mark => markElement mark [node]) item.node

theorem alone_concat (marks : List Mark) (mark : Mark) (node : Node) :
    alone ⟨marks ++ [mark], node⟩ = markElement mark [alone ⟨marks, node⟩] := by
  rw [alone, List.foldl_concat, alone]

theorem alone_of_outer {item : MarkedNode} {mark : Mark} (outer : item.marks.getLast? = some mark) :
    item.alone = markElement mark [item.dropOuter.alone] := by
  have whole : item = ⟨item.marks.dropLast ++ [mark], item.node⟩ := by
    rw [List.dropLast_append_getLast? mark outer]
  rw [congrArg alone whole, alone_concat, dropOuter]

/-- What is found in the element of a mark. There is no image in a link that is a mark. -/
theorem found_markElement {mark : Mark} {children : List Node}
    (bare : mark.kind = .link → (children.flatMap (Node.found page)).any Found.isImage = false) :
    (markElement mark children).found page = match mark.kind with
      | .link =>
        (children.flatMap (Node.found page)).map (Found.under [.link false (LinkPolicy.markupAttrs mark.attrs)])
      | .code => Found.ofText page (Node.textOf children)
      | _ => children.flatMap (Node.found page) := by
  rw [markElement, Node.found_element]
  cases kind : mark.kind with
  | link => exact Found.around_link (bare kind) _ _
  | code => rfl
  | bold | italic | strike => exact Found.around_formatting (by simp) _ _ _

theorem textContent_alone (item : MarkedNode) : item.alone.textContent = item.node.textContent := by
  obtain ⟨marks, node⟩ := item
  induction marks using List.reverseRecOn with
  | nil => rfl
  | append_singleton front mark ih =>
    have shown : mark.kind.tag ≠ "style" := by cases mark.kind <;> decide
    rw [alone_concat, markElement, Node.textContent_element shown, Node.textOf_cons, Node.textOf_nil,
      String.append_empty, ih]

theorem isImage_alone (item : MarkedNode) (bare : (item.node.found page).any Found.isImage = false) :
    (item.alone.found page).any Found.isImage = false := by
  obtain ⟨marks, node⟩ := item
  induction marks using List.reverseRecOn with
  | nil => exact bare
  | append_singleton front mark ih =>
    have inside := ih bare
    rw [← List.flatMap_singleton (Node.found page)] at inside
    rw [alone_concat, found_markElement fun _ => inside]
    split
    · rw [List.any_map]
      exact inside
    · exact Found.isImage_ofText page _
    · exact inside

theorem found_alone_text (marks : List Mark) (content : String) :
    (alone ⟨marks, .text content⟩).found page =
    (Found.ofText page content).map (Found.under (Frame.ofMarks marks)) := by
  induction marks using List.reverseRecOn with
  | nil =>
    refine (Node.found_text page content).trans ?_
    exact (Found.map_under_nil _).symm
  | append_singleton front mark ih =>
    have bare : ([alone ⟨front, .text content⟩].flatMap (Node.found page)).any Found.isImage = false := by
      rw [List.flatMap_singleton]
      refine isImage_alone _ ?_
      rw [Node.found_text]
      exact Found.isImage_ofText page content
    rw [alone_concat, found_markElement fun _ => bare, Frame.ofMarks_concat, Frame.withMark,
      List.flatMap_singleton, ih]
    cases mark.kind with
    | link => exact Found.map_under_under _ _ _
    | code =>
      rw [Node.textOf_cons, Node.textOf_nil, String.append_empty, textContent_alone, Node.textContent_text]
      exact (Found.map_under_nil _).symm
    | bold | italic | strike => rfl

/-- Where no mark is a link or code, the node itself is found. -/
theorem found_alone (item : MarkedNode) (shown : ∀ mark ∈ item.marks, ¬ (mark.kind = .link ∨ mark.kind = .code)) :
    item.alone.found page = item.node.found page := by
  obtain ⟨marks, node⟩ := item
  induction marks using List.reverseRecOn with
  | nil => rfl
  | append_singleton front mark ih =>
    rw [List.forall_mem_append, List.forall_mem_singleton, not_or] at shown
    obtain ⟨below, link, code⟩ := shown
    rw [alone_concat, found_markElement fun same => absurd same link, List.flatMap_singleton, ih below]
    cases kind : mark.kind <;> simp_all

/-- What is found in texts with equal marks is found in the text that they make together. -/
theorem coalesce_found {items : List MarkedNode} (fits : ∀ item ∈ items, item.Fits page) :
    (∀ item ∈ coalesce items, item.Fits page) ∧
      List.Forall₂ Found.Alike ((coalesce items).flatMap fun item => item.alone.found page)
        (items.flatMap fun item => item.alone.found page) := by
  have closed : ∀ x y z : MarkedNode, x.Fits page → y.Fits page → coalesced? x y = some z → z.Fits page := by
    intro x y z fits _ merged
    obtain ⟨marks, content, _, next, rfl, rfl, _, rfl⟩ := coalesced?_eq_some merged
    exact .text fits.wellFormed _
  rw [coalesce_eq]
  refine ⟨forall_mergeNeighbours closed fits, forall₂_flatMap_mergeNeighbours closed Found.Alike.trans
    (fun x _ => List.forall₂_same.2 fun one _ => .refl one) (fun x y z fits fits' merged => ?_) fits⟩
  obtain ⟨marks, content, marks', next, rfl, rfl, same, rfl⟩ := coalesced?_eq_some merged
  have self : ∀ found : List Found, List.Forall₂ Found.Alike found found := fun found =>
    List.forall₂_same.2 fun one _ => .refl one
  have others := Found.map_under_alike (Frame.ofMarks_alike fits.wellFormed fits'.wellFormed same)
    (self (Found.ofText page next))
  rw [found_alone_text, found_alone_text, found_alone_text, Found.ofText_append, List.map_append]
  exact List.rel_append (self _) others

/-- What is found in a node with marks, by the outermost of them. -/
theorem found_alone_of_outer {item : MarkedNode} (fits : item.Fits page) {mark : Mark}
    (outer : item.marks.getLast? = some mark) :
    item.alone.found page = match mark.kind with
      | .link =>
        (item.dropOuter.alone.found page).map (Found.under [.link false (LinkPolicy.markupAttrs mark.attrs)])
      | .code => Found.ofText page item.node.textContent
      | _ => item.dropOuter.alone.found page := by
  rw [alone_of_outer outer, found_markElement, List.flatMap_singleton, Node.textOf_cons, Node.textOf_nil,
    String.append_empty, textContent_alone]
  · rfl
  · intro link
    rw [List.flatMap_singleton]
    exact isImage_alone _ (fits.bare ⟨mark, List.mem_of_getLast? outer, link⟩)

section Run

variable {items : List MarkedNode} {mark : Mark}

/-- What is found in the element of a mark, around nodes that are inside of it. -/
theorem markElement_found (fits : ∀ item ∈ items, item.Fits page) (valid : mark.wellFormed = true)
    (outer : ∀ item ∈ items, Mark.sameOption (some mark) item.marks.getLast? = true)
    (inside : List.Forall₂ Found.Alike ((nest (items.map dropOuter)).flatMap (Node.found page))
      (items.flatMap fun item => item.dropOuter.alone.found page)) :
    List.Forall₂ Found.Alike ((markElement mark (nest (items.map dropOuter))).found page)
      (items.flatMap fun item => item.alone.found page) := by
  have self : ∀ found : List Found, List.Forall₂ Found.Alike found found := fun found =>
    List.forall₂_same.2 fun one _ => .refl one
  have each : ∀ item ∈ items, ∃ own, item.marks.getLast? = some own ∧ own.kind = mark.kind ∧
      own.wellFormed = true ∧ mark.attrs.same own.attrs = true := by
    intro item member
    obtain ⟨own, last, same⟩ := Mark.exists_of_sameOption (outer item member)
    obtain ⟨kind, attrs⟩ := Mark.same_iff.1 same
    exact ⟨own, last, kind.symm, wellFormed_of_outer (fits item member).wellFormed own last, attrs⟩
  have bare : mark.kind = .link →
      ((nest (items.map dropOuter)).flatMap (Node.found page)).any Found.isImage = false := by
    intro link
    rw [Found.any_isImage_eq Found.Alike.isImage inside, List.any_flatMap, List.any_eq_false]
    intro item member
    obtain ⟨own, last, kind, -⟩ := each item member
    rw [isImage_alone item.dropOuter ((fits item member).bare ⟨own, List.mem_of_getLast? last, kind.trans link⟩)]
    decide
  rw [found_markElement bare]
  cases kind : mark.kind with
  | link =>
    have linked :=
      Found.map_under_alike (.cons (.refl (.link false (LinkPolicy.markupAttrs mark.attrs))) .nil) inside
    refine forall₂_trans Found.Alike.trans linked ?_
    rw [List.map_flatMap]
    refine forall₂_flatMap fun item member => ?_
    obtain ⟨own, last, same, valid', attrs⟩ := each item member
    rw [found_alone_of_outer (fits item member) last, same, kind]
    exact Found.map_under_alike (.cons (.link (LinkPolicy.markupAttrs_same valid valid' attrs)) .nil) (self _)
  | code =>
    have texts : (items.flatMap fun item => item.alone.found page) =
        items.flatMap fun item => Found.ofText page item.node.textContent := by
      refine List.flatMap_congr fun item member => ?_
      obtain ⟨own, last, same, -⟩ := each item member
      rw [found_alone_of_outer (fits item member) last, same, kind]
    rw [texts, textOf_nest, textOf, Found.ofText_textOf, List.map_map, List.flatMap_map]
    exact self _
  | bold | italic | strike =>
    refine forall₂_trans Found.Alike.trans inside (forall₂_flatMap fun item member => ?_)
    obtain ⟨own, last, same, -⟩ := each item member
    rw [found_alone_of_outer (fits item member) last, same, kind]
    exact self _

end Run

/-- What is found in a line is found again when its marks are elements. -/
theorem nest_found {items : List MarkedNode} (fits : ∀ item ∈ items, item.Fits page) :
    List.Forall₂ Found.Alike ((nest items).flatMap (Node.found page))
    (items.flatMap fun item => item.alone.found page) := by
  induction items using nest_induction with
  | step items ih =>
    have runs : ∀ run ∈ Run.byOuterMark marks items, List.Forall₂ Found.Alike
        ((wrapped nest run).flatMap (Node.found page)) (run.items.flatMap fun item => item.alone.found page) := by
      intro run cut
      have each : ∀ item ∈ run.items, item.Fits page := fun item member => fits item (Run.mem_of_mem cut member)
      have outer : ∀ item ∈ run.items, Mark.sameOption run.key item.marks.getLast? = true := fun item member =>
        Run.same_key_of_mem Mark.sameOption_trans
          (fun x inside => Mark.sameOption_refl (wellFormed_of_outer (fits x inside).wellFormed)) cut member
      cases keyed : run.key with
      | none =>
        simp only [wrapped, keyed, List.flatMap_map]
        refine forall₂_flatMap fun item member => ?_
        rw [keyed] at outer
        rw [alone, marks_eq_nil_of_unmarked (outer item member)]
        exact List.forall₂_same.2 fun one _ => .refl one
      | some mark =>
        have inside := ih run cut mark keyed (List.forall_mem_map.2 fun item member => (each item member).dropOuter)
        rw [List.flatMap_map] at inside
        rw [keyed] at outer
        simp only [wrapped, keyed, List.flatMap_singleton]
        refine markElement_found each ?_ outer inside
        obtain ⟨item, member, key⟩ := Run.exists_key_of_mem cut
        exact wellFormed_of_outer (each item member).wellFormed mark (key.symm.trans keyed)
    have whole : Run.flatten (Run.byOuterMark marks items) = items := Run.flatten_ofList _ _ items
    rw [nest_eq, List.flatMap_assoc]
    conv_rhs => rw [← whole, Run.flatten, List.flatMap_assoc]
    exact forall₂_flatMap runs

end Alone

end MarkedNode

end ComponentMarkdown
