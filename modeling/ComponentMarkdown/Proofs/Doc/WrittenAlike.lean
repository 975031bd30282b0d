import ComponentMarkdown.Proofs.Doc.Line
import ComponentMarkdown.Proofs.Doc.Spelling

namespace ComponentMarkdown

namespace DocNode

theorem marked_wellFormed [Surroundings] {nodes : List DocNode} (valid : ∀ node ∈ nodes, node.isWellMarked = true) :
    Slugged.Gives (fun items => ∀ item ∈ items, item.wellFormed = true) (Writing.marked (nodes.map writing)) := by
  induction nodes with
  | nil => exact .pure (by simp)
  | cons node rest ih =>
    obtain ⟨here, below⟩ := List.forall_mem_cons.1 valid
    rw [List.map_cons, Writing.marked]
    refine (inline_wellFormed here).bind fun items first => (ih below).bind fun tail later => .pure ?_
    exact List.forall_mem_append.2 ⟨first, later⟩

/-- Two lines in a row can be joined one by one before they are joined to each other. -/
theorem runs_append [Surroundings] {nodes more : List DocNode} (valid : ∀ node ∈ nodes, node.isWellMarked = true)
    (valid' : ∀ node ∈ more, node.isWellMarked = true) :
    runs (nodes ++ more) = do
      let first ← runs nodes
      let rest ← runs more
      return first.foldr (consMerging MarkedNode.coalesced?) rest := by
  funext registry
  have items := marked_wellFormed valid registry
  have others := marked_wellFormed valid' ((Writing.marked (nodes.map writing)).run registry).2
  have order := MarkedNode.coalesced?_inAnyOrder.mergeNeighbours_merged_append items others
  simp only [mergeNeighbours, List.foldr_append] at order
  simp only [runs, Writing.marked_append, bind_assoc, pure_bind, MarkedNode.coalesce_eq, mergeNeighbours,
    List.foldr_append]
  change (_ >>= _ : Slugged _).run registry = (_ >>= _ : Slugged _).run registry
  simp only [Slugged.run_bind, Slugged.run_pure, order]

/-- Lines that are written alike. -/
structure LinesAlike [Surroundings] (docs others : List DocNode) : Prop where
  wellMarked : ∀ doc ∈ docs, doc.isWellMarked = true
  wellMarked' : ∀ doc ∈ others, doc.isWellMarked = true
  runs : runs docs = runs others

namespace LinesAlike

variable {docs others : List DocNode}

theorem nil [Surroundings] : LinesAlike [] [] := ⟨by simp, by simp, rfl⟩

theorem append [Surroundings] {more more' : List DocNode} (first : LinesAlike docs others)
    (second : LinesAlike more more') : LinesAlike (docs ++ more) (others ++ more') := by
  refine ⟨List.forall_mem_append.2 ⟨first.wellMarked, second.wellMarked⟩,
    List.forall_mem_append.2 ⟨first.wellMarked', second.wellMarked'⟩, ?_⟩
  rw [runs_append first.wellMarked second.wellMarked, runs_append first.wellMarked' second.wellMarked', first.runs,
    second.runs]

theorem refl [Surroundings] (wellMarked : ∀ doc ∈ docs, doc.isWellMarked = true) : LinesAlike docs docs :=
    ⟨wellMarked, wellMarked, rfl⟩

/-- Nodes with the same marks that are written alike. -/
theorem single [Surroundings] {doc other : DocNode} {marks : List Mark} (valid : marks.all Mark.wellFormed = true)
    (marked : doc.marks = marks) (marked' : other.marks = marks)
    (written : doc.writing.inline = other.writing.inline) : LinesAlike [doc] [other] := by
  refine ⟨List.forall_mem_singleton.2 ?_, List.forall_mem_singleton.2 ?_, ?_⟩
  · rw [isWellMarked, marked, valid]
  · rw [isWellMarked, marked', valid]
  · rw [runs_cons, runs_cons, written]

theorem joinTexts [Surroundings] (alike : LinesAlike docs others) :
    LinesAlike (Reading.joinTexts docs) (Reading.joinTexts others) := by
  refine ⟨joinTexts_wellMarked alike.wellMarked, joinTexts_wellMarked alike.wellMarked', ?_⟩
  rw [runs_joinTexts alike.wellMarked, runs_joinTexts alike.wellMarked', alike.runs]

theorem line [Surroundings] (alike : LinesAlike docs others) :
    Writing.line (docs.map writing) = Writing.line (others.map writing) := by
  rw [line_eq, line_eq, alike.runs]

end LinesAlike

/-- Nodes without marks that are written alike, among blocks and inside a line. -/
structure WrittenAlike [Surroundings] (doc other : DocNode) : Prop where
  place : doc.isInline = other.isInline
  unmarked : doc.marks = []
  unmarked' : other.marks = []
  block : doc.writing.block = other.writing.block
  inline : doc.writing.inline = other.writing.inline

namespace WrittenAlike

theorem refl [Surroundings] {doc : DocNode} (unmarked : doc.marks = []) :
    WrittenAlike doc doc := ⟨rfl, unmarked, unmarked, rfl, rfl⟩

theorem linesAlike [Surroundings] {doc other : DocNode} (alike : WrittenAlike doc other) :
    LinesAlike [doc] [other] :=
  .single (by rfl) alike.unmarked alike.unmarked' alike.inline

variable {docs others : List DocNode}

theorem ofContent [Surroundings] (doc : List DocNode → DocNode) (content : List DocNode → Slugged (List Node))
    (wrap : Bool → List Node → Slugged (List Node)) (same : content docs = content others)
    (outside : ∀ docs, (doc docs).isInline = false) (unmarked : ∀ docs, (doc docs).marks = [])
    (block : ∀ docs followsInline, (doc docs).writing.block followsInline = content docs >>= wrap followsInline)
    (inline : ∀ docs, (doc docs).writing.inline =
      do return (← (doc docs).writing.block false).map (MarkedNode.mk [])) :
    WrittenAlike (doc docs) (doc others) := by
  have blocks : (doc docs).writing.block = (doc others).writing.block := by
    funext followsInline
    rw [block, block, same]
  refine ⟨(outside docs).trans (outside others).symm, unmarked docs, unmarked others, blocks, ?_⟩
  rw [inline, inline, blocks]

theorem marked [Surroundings] (alike : List.Forall₂ WrittenAlike docs others) :
    Writing.marked (docs.map writing) = Writing.marked (others.map writing) := by
  induction alike with
  | nil => rfl
  | cons first _ ih => rw [List.map_cons, List.map_cons, Writing.marked, Writing.marked, first.inline, ih]

theorem line [Surroundings] (alike : List.Forall₂ WrittenAlike docs others) :
    Writing.line (docs.map writing) = Writing.line (others.map writing) := by
  rw [Writing.line, Writing.line, marked alike]

theorem blocksFrom [Surroundings] (alike : List.Forall₂ WrittenAlike docs others) {waiting waiting' : List DocNode}
    (inFront : List.Forall₂ WrittenAlike waiting waiting') (done : List Node) :
    Writing.blocksFrom done (waiting.map writing) (docs.map writing) =
      Writing.blocksFrom done (waiting'.map writing) (others.map writing) := by
  induction alike generalizing waiting waiting' done with
  | nil => rw [List.map_nil, Writing.blocksFrom, Writing.blocksFrom, line inFront]
  | @cons doc other docs others first _ ih =>
    rw [List.map_cons, List.map_cons, Writing.blocksFrom, Writing.blocksFrom, writing_node,
      writing_node, first.place, first.block, line inFront]
    split
    · have longer := ih (List.rel_append inFront (.cons first .nil)) done
      simpa only [List.map_append, List.map_singleton] using longer
    · refine bind_congr fun content => bind_congr fun nodes => ?_
      exact ih .nil _

theorem blocks [Surroundings] (alike : List.Forall₂ WrittenAlike docs others) :
    Writing.blocks (docs.map writing) = Writing.blocks (others.map writing) :=
  blocksFrom alike .nil []

theorem paragraph [Surroundings] (synthetic : Bool) (alike : LinesAlike docs others) :
    WrittenAlike (.paragraph synthetic docs) (.paragraph synthetic others) := by
  refine ofContent (.paragraph synthetic) (fun docs => Writing.line (docs.map writing))
    (fun followsInline content => pure (if synthetic && !followsInline then content else [.element "p" [] content]))
    alike.line (fun _ => rfl) (fun _ => rfl) ?_ ?_
  · intro docs followsInline
    rw [writing_block]
    rfl
  · intro docs
    rw [writing_inline, writing_block]
    rfl

theorem heading [Surroundings] (level : Nat) (id : String) (alike : LinesAlike docs others) :
    WrittenAlike (.heading level id docs) (.heading level id others) := by
  refine ofContent (.heading level id) (fun docs => Writing.line (docs.map writing))
    (fun _ content => do
      let id ← (fun registry => registry.issue (Node.textOf content) : Slugged String)
      return [.element ("h" ++ toString level) [("id", .str id)] content])
    alike.line (fun _ => rfl) (fun _ => rfl) ?_ ?_
  · intro docs followsInline
    rw [writing_block]
    rfl
  · intro docs
    rw [writing_inline, writing_block]
    rfl

theorem container [Surroundings] (doc : List DocNode → DocNode) (wrap : List Node → List Node)
    (alike : List.Forall₂ WrittenAlike docs others) (outside : ∀ docs, (doc docs).isInline = false)
    (unmarked : ∀ docs, (doc docs).marks = [])
    (block : ∀ docs followsInline, (doc docs).writing.block followsInline =
      do return wrap (← Writing.blocks (docs.map writing)))
    (inline : ∀ docs, (doc docs).writing.inline =
      do return (← (doc docs).writing.block false).map (MarkedNode.mk [])) :
    WrittenAlike (doc docs) (doc others) :=
  ofContent doc (fun docs => Writing.blocks (docs.map writing)) (fun _ content => pure (wrap content))
    (blocks alike) outside unmarked block inline

section Containers

variable [Surroundings] (alike : List.Forall₂ WrittenAlike docs others)

include alike

theorem bulletList : WrittenAlike (.bulletList docs) (.bulletList others) := by
  refine container .bulletList (fun content => [.element "ul" [] content]) alike (fun _ => rfl) (fun _ => rfl) ?_ ?_
  · exact fun docs followsInline => by rw [writing_block]; rfl
  · exact fun docs => by rw [writing_inline, writing_block]; rfl

theorem orderedList (start : Nat) : WrittenAlike (.orderedList start docs) (.orderedList start others) := by
  refine container (.orderedList start)
    (fun content => [.element "ol" (if start = 1 then [] else [("start", .num (.int start))]) content])
    alike (fun _ => rfl) (fun _ => rfl) ?_ ?_
  · exact fun docs followsInline => by rw [writing_block]; rfl
  · exact fun docs => by rw [writing_inline, writing_block]; rfl

theorem listItem : WrittenAlike (.listItem docs) (.listItem others) := by
  refine container (.listItem) (fun content => [.element "li" [] content]) alike (fun _ => rfl) (fun _ => rfl) ?_ ?_
  · exact fun docs followsInline => by rw [writing_block]; rfl
  · exact fun docs => by rw [writing_inline, writing_block]; rfl

theorem blockquote : WrittenAlike (.blockquote docs) (.blockquote others) := by
  refine container (.blockquote) (fun content => [.element "blockquote" [] content]) alike (fun _ => rfl)
    (fun _ => rfl) ?_ ?_
  · exact fun docs followsInline => by rw [writing_block]; rfl
  · exact fun docs => by rw [writing_inline, writing_block]; rfl

theorem element (tag : String) (props : Attrs) :
    WrittenAlike (.element tag props docs) (.element tag props others) := by
  refine container (.element tag props) (fun content => [.element tag props content]) alike (fun _ => rfl)
    (fun _ => rfl) ?_ ?_
  · exact fun docs followsInline => by rw [writing_block]; rfl
  · exact fun docs => by rw [writing_inline, writing_block]; rfl

theorem slot (name : String) (props : Attrs) (synthetic : Bool) :
    WrittenAlike (.slot name props synthetic docs) (.slot name props synthetic others) := by
  refine ofContent (.slot name props synthetic) (fun docs => Writing.blocks (docs.map writing))
    (fun _ content => if synthetic then pure content
      else pure [.element "template" (Attrs.insertAll [("v-slot:" ++ name, .str "")] props) content])
    (blocks alike) (fun _ => rfl) (fun _ => rfl) ?_ ?_
  · exact fun docs followsInline => by rw [writing_block]; rfl
  · exact fun docs => by rw [writing_inline, writing_block]; rfl

end Containers

end WrittenAlike

end DocNode

end ComponentMarkdown
