import ComponentMarkdown.Platform
import ComponentMarkdown.Proofs.Doc.ReadHeadings

namespace ComponentMarkdown

namespace DocNode

theorem readOrder_perm (node : DocNode) : node.readOrder.Perm node.children := by
  cases node
  case element tag props children =>
    rw [readOrder, withLast]
    exact List.perm_append_comm.trans (List.filter_append_perm isDefaultSlot children)
  all_goals exact .refl _

/-- Reading passes every heading once. -/
theorem readAnchors_perm (node : DocNode) : node.readAnchors.Perm node.anchors := by
  induction node using induction with
  | step node ih =>
    rw [readAnchors_eq, anchors_eq]
    refine List.Perm.append_left _ ((node.readOrder_perm.flatMap_right readAnchors).trans ?_)
    exact List.Perm.flatMap_left _ ih

end DocNode

namespace Writing

/-- Whether a tag is an `h` with a number behind it. -/
def isHeadingTag (tag : String) : Bool :=
  match tag.toList with
  | 'h' :: digits => !digits.isEmpty && digits.all Char.isDigit
  | _ => false

theorem isHeadingTag_of_level (level : Nat) : isHeadingTag ("h" ++ toString level) = true := by
  obtain ⟨some, digits, _⟩ := AttributeBlock.repr_nat level
  have chars : ("h" ++ toString level).toList = 'h' :: level.repr.toList := String.toList_append
  rw [isHeadingTag, chars]
  simp only [Bool.and_eq_true, Bool.not_eq_true', List.isEmpty_eq_false_iff, List.all_eq_true]
  exact ⟨some, digits⟩

theorem isTagged_isHeadingTag (node : DocNode) : node.everywhere (DocNode.isTagged isHeadingTag) = true := by
  induction node using DocNode.induction with
  | step node ih =>
    refine DocNode.everywhere_iff.2 ⟨?_, ih⟩
    cases node
    case heading level id children => exact isHeadingTag_of_level level
    all_goals rfl

end Writing

namespace Doc

theorem anchors_unique [Surroundings] :
    (∀ (tree : Tree) (emoji : Bool), (ofTree tree emoji).headingIds.Nodup ∧
        ∀ id ∈ (ofTree tree emoji).headingIds, id ≠ "") ∧
      ∀ doc : Doc, ∃ ids, DocNode.Builds (doc.content.flatMap (DocNode.headingSources Writing.isHeadingTag))
        (doc.toTree.nodes.flatMap (Node.headingAttrs Writing.isHeadingTag)) ids ∧
          ids.Nodup ∧ ∀ id ∈ ids, id ≠ "" := by
  refine ⟨fun tree emoji => ?_, fun doc => ?_⟩
  · obtain ⟨issued, read, order⟩ := ofTree_headings tree emoji (fun impossible : False => impossible.elim)
    have passed : ((ofTree tree emoji).content.flatMap DocNode.readAnchors).Perm (ofTree tree emoji).anchors :=
      List.Perm.flatMap_left _ fun node _ => node.readAnchors_perm
    have ids : (issued.map Anchor.slug).Perm (ofTree tree emoji).headingIds := by
      rw [read.slugs]
      exact passed.map Anchor.slug
    exact ⟨ids.nodup_iff.1 order.nodup, fun id member => order.ne_empty id (ids.mem_iff.2 member)⟩
  · have tagged : doc.everywhere (DocNode.isTagged Writing.isHeadingTag) = true :=
      everywhere_iff.2 fun node _ => Writing.isTagged_isHeadingTag node
    obtain ⟨issued, ⟨ids, builds, same, _⟩, order⟩ := toTree_headings (by decide) tagged
    exact ⟨ids, builds, same.nodup_iff.2 order.nodup, fun id member => order.ne_empty id (same.mem_iff.1 member)⟩

/-- The second heading takes the slug that the third one would get. -/
example : letI : Surroundings := .platform
    (ofTree (.ofNodes [.element "h2" [] [.text "Intro"], .element "h2" [] [.text "Intro 1"],
    .element "h2" [] [.text "Intro"]]) false).headingIds = ["intro", "intro-1", "intro-2"] := by decide

end Doc

end ComponentMarkdown
