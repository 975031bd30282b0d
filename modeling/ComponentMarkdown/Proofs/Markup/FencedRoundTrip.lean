import ComponentMarkdown.Proofs.Markup.FencedOrder
import ComponentMarkdown.Proofs.Markup.ParseOutcome
import ComponentMarkdown.Proofs.RoundTrip

namespace ComponentMarkdown

namespace Node

section Lines

/-- Whether a text is read as one line. -/
def IsLine (line : List Char) : Prop := '\n' ∉ line ∧ line.getLast? ≠ some '\r'

theorem isLine_of_not_mem {line : List Char} (feed : '\n' ∉ line) (carriage : '\r' ∉ line) : IsLine line :=
  ⟨feed, fun last => carriage (List.mem_of_getLast? last)⟩

theorem not_mem_of_isName {name : List Char} (named : Token.isName name = true) : '\n' ∉ name ∧ '\r' ∉ name := by
  have chars := Token.isName_chars named
  exact ⟨fun member => absurd (chars _ member) (by decide), fun member => absurd (chars _ member) (by decide)⟩

theorem isLine_colons (depth : Nat) : IsLine (List.replicate depth ':') :=
  isLine_of_not_mem (by simp) (by simp)

theorem isLine_slot {name : List Char} (named : Token.isName name = true) : IsLine ('#' :: name) := by
  obtain ⟨feed, carriage⟩ := not_mem_of_isName named
  exact isLine_of_not_mem (by simp [feed]) (by simp [carriage])

theorem isLine_open (depth : Nat) {tag : List Char} (named : Token.isName tag = true) {attrs : Attrs}
    (readable : AttributeBlock.isReadable attrs = true) :
    IsLine (List.replicate depth ':' ++ (tag ++ AttributeBlock.write attrs [])) := by
  obtain ⟨feed, carriage⟩ := not_mem_of_isName named
  have block := AttributeBlock.write_oneLine readable
  rcases AttributeBlock.write_braced attrs with none | ⟨inner, braces⟩
  · rw [none, List.append_nil]
    exact isLine_of_not_mem (by simp [feed]) (by simp [carriage])
  · refine ⟨by simp [feed, block], ?_⟩
    rw [braces, ← List.cons_append, ← List.append_assoc, ← List.append_assoc, List.getLast?_concat]
    decide

theorem isLine_allFencedLines {nodes : List Node} {depth : Nat}
    (each : ∀ node ∈ nodes, ∀ line ∈ node.fencedLines depth, IsLine line) (behindBare : Bool) :
    ∀ line ∈ allFencedLines depth behindBare nodes, IsLine line := by
  induction nodes generalizing behindBare with
  | nil => simp [allFencedLines]
  | cons node rest ih =>
    obtain ⟨here, below⟩ := List.forall_mem_cons.1 each
    rw [allFencedLines]
    refine List.forall_mem_append.2 ⟨?_, List.forall_mem_append.2 ⟨here, ih below _⟩⟩
    split
    · exact List.forall_mem_singleton.2 ⟨by simp, by simp⟩
    · exact List.forall_mem_nil IsLine

theorem isLine_fencedLines {node : Node} (fenced : node.IsFenced) (depth : Nat) :
    ∀ line ∈ node.fencedLines depth, IsLine line := by
  induction fenced generalizing depth with
  | component named meaning readable below ih =>
    have content := isLine_allFencedLines (fun child member => ih child member (depth + 1)) false
    rw [fencedLines_component meaning]
    exact List.forall_mem_cons.2 ⟨isLine_open (depth + 2) named readable,
      List.forall_mem_append.2 ⟨content, List.forall_mem_singleton.2 (isLine_colons (depth + 2))⟩⟩
  | slot named below bare ih =>
    rw [fencedLines_slot named]
    have content := isLine_allFencedLines (fun child member => ih child member depth) false
    exact List.forall_mem_cons.2 ⟨isLine_slot named, content⟩

end Lines

end Node

namespace Frontmatter

theorem isMark_of_head {line : List Char} (first : line.head? ≠ some '-') : isMark true line = false := by
  have start : (Text.dropReturn line).head? ≠ some '-' := fun other => first (Text.head?_dropReturn other)
  rw [isMark, if_pos rfl]
  split
  · rename_i same
    rw [same] at start
    exact absurd rfl start
  · rfl

/-- A document that does not start with a dash has no frontmatter block. -/
theorem split_of_head {source : String} (first : source.toList.head? ≠ some '-') :
    split source = ⟨none, source⟩ := by
  rw [split]
  split
  · rename_i line next rest parts
    have opening : line.head? ≠ some '-' := fun other => first (Text.head?_of_splitOn parts other)
    rw [isMark_of_head opening]
    rfl
  · rfl

end Frontmatter

theorem Progress.foldl_feed_bare (blocks : List Char → List Node) {nodes : List Node}
    (bare : ∀ node ∈ nodes, node.slotName? = none) (before : List Node) :
    nodes.foldl (feed blocks) ⟨⟨before, []⟩, []⟩ = ⟨⟨before ++ nodes.map Node.settled, []⟩, []⟩ := by
  induction nodes generalizing before with
  | nil => rw [List.foldl_nil, List.map_nil, List.append_nil]
  | cons node rest ih =>
    obtain ⟨here, below⟩ := List.forall_mem_cons.1 bare
    have next : feed blocks ⟨⟨before, []⟩, []⟩ node = ⟨⟨before ++ [node.settled], []⟩, []⟩ := by
      rw [feed_bare here]
      rfl
    rw [List.foldl_cons, next, ih below, List.map_cons, List.append_assoc, List.singleton_append]

namespace Tree

section Fenced

variable {nodes : List Node} (fenced : ∀ node ∈ nodes, node.IsFenced) (bare : ∀ node ∈ nodes, node.slotName? = none)
  (skipFrontmatter : Bool)

include fenced bare

theorem lines_toMarkdown : Text.lines ((ofNodes nodes).toMarkdown skipFrontmatter).toList =
    Node.allFencedLines 0 false nodes := by
  rw [toMarkdown_fenced fenced bare]
  by_cases empty : nodes = []
  · subst empty
    rfl
  · have lines :=
      Node.isLine_allFencedLines (fun node member => Node.isLine_fencedLines (fenced node member) 0) false
    rw [if_neg empty, Text.lines_join (Node.allFencedLines_ne_nil empty fenced 0 false)
      (fun line member => (lines line member).1) (fun line member => (lines line member).2)]

theorem head?_toMarkdown : ((ofNodes nodes).toMarkdown skipFrontmatter).toList.head? ≠ some '-' := by
  rw [toMarkdown_fenced fenced bare]
  cases nodes with
  | nil => simp
  | cons node rest =>
    obtain ⟨here, _⟩ := List.forall_mem_cons.1 fenced
    obtain ⟨bareHere, _⟩ := List.forall_mem_cons.1 bare
    cases here with
    | component named meaning =>
      rw [if_neg (List.cons_ne_nil _ _), Node.allFencedLines, Node.fencedLines_component meaning, Bool.false_and,
        if_neg (by simp), List.nil_append, List.cons_append, Text.join_cons_eq_flatMap, List.replicate_succ]
      simp
    | slot named =>
      rw [Node.slotName?_slot named] at bareHere
      cases bareHere

/-- Components are read back as settled components. -/
theorem parse_toMarkdown_fenced {blocks : List Char → List Node} (empty : blocks [] = []) :
    parseWith blocks ((ofNodes nodes).toMarkdown skipFrontmatter) = .ok (ofNodes (nodes.map Node.settled)) := by
  have start := Frontmatter.split_of_head (head?_toMarkdown fenced bare skipFrontmatter)
  have lines := lines_toMarkdown fenced bare skipFrontmatter
  have read := Progress.reads_all empty 0 (fun node member => Progress.reads_fenced empty (fenced node member) 0)
    .start (fun node member => Or.inl (bare node member)) false (by simp) 1 []
  have whole : nodes.foldl (Progress.feed blocks) .start = ⟨⟨nodes.map Node.settled, []⟩, []⟩ :=
    Progress.foldl_feed_bare blocks bare []
  rw [List.append_nil, whole] at read
  have scanned : Progress.scan blocks .start (Token.ofLines none 1 (Node.allFencedLines 0 false nodes)) =
      .ok (nodes.map Node.settled) := by
    rw [Progress.scan, read]
    rfl
  rw [parseWith_eq, tokens, start, Token.tokenize, lines, scanned]
  rfl

end Fenced

/-- Components with slots behind them are read back as they were written. -/
theorem parse_toMarkdown_ordered {blocks : List Char → List Node} (empty : blocks [] = []) {nodes : List Node}
    (fenced : ∀ node ∈ nodes, node.IsFenced)
    (bare : ∀ node ∈ nodes, node.slotName? = none) (ordered : ∀ node ∈ nodes, node.isOrdered = true)
    (skipFrontmatter : Bool) :
    ∃ read, parseWith blocks ((ofNodes nodes).toMarkdown skipFrontmatter) = .ok read ∧
    (ofNodes nodes).Alike read := by
  refine ⟨_, parse_toMarkdown_fenced fenced bare skipFrontmatter empty, ?_, rfl, rfl⟩
  rw [Node.allAlike_iff]
  exact List.forall₂_map_right_iff.2 (List.forall₂_same.2 fun node member =>
    Node.alike_settled (fenced node member) (ordered node member))

/-- A card with attributes, a component and two slots, in front of another component. -/
theorem parse_toMarkdown_ordered_card :
    let note := Node.element "note" [] []
    let nodes :=
      [.element "card" [("class", .str "wide red"), ("title", .str "A \"b\""), ("size", .num (.int (-3)))]
        [note, .slotTemplate "body" [note, note], .slotTemplate "foot" []], note]
    ∃ read, parse ((ofNodes nodes).toMarkdown false) = .ok read ∧ (ofNodes nodes).Alike read := by
  intro note nodes
  have plain : note.IsFenced := .component (by decide) (by decide) (by decide) (by simp)
  have body : (Node.slotTemplate "body" [note, note]).IsFenced :=
    .slot (by decide) (by simp [plain]) (by decide)
  have foot : (Node.slotTemplate "foot" []).IsFenced := .slot (by decide) (by simp) (by simp)
  refine parse_toMarkdown_ordered (by rfl : Markdown.parse [] = []) ?_ (by decide) (by decide) false
  refine List.forall_mem_cons.2
    ⟨.component (by decide) (by decide) (by decide) ?_, List.forall_mem_singleton.2 plain⟩
  simp [plain, body, foot]

/-- Components are read back with all content where it was if and only if they stand in front of the slots. -/
theorem parse_toMarkdown_regrouped_iff {blocks : List Char → List Node} (empty : blocks [] = []) {nodes : List Node}
    (outline : ∀ node ∈ nodes, node.IsOutline)
    (bare : ∀ node ∈ nodes, node.slotName? = none) (skipFrontmatter : Bool) :
    ∃ read, parseWith blocks ((ofNodes nodes).toMarkdown skipFrontmatter) = .ok (ofNodes read) ∧
      (read.map Node.regrouped = nodes.map Node.regrouped ↔ ∀ node ∈ nodes, node.isOrdered = true) := by
  have read := parse_toMarkdown_fenced (fun node member => (outline node member).fenced) bare skipFrontmatter empty
  refine ⟨_, read, ?_⟩
  rw [List.map_map, List.map_inj_left]
  exact forall₂_congr fun node member => Node.regrouped_settled_iff (outline node member)

/-- A component in front of a slot that holds one. -/
theorem parse_toMarkdown_regrouped_iff_footer :
    let note := Node.element "note" [] []
    let nodes := [.element "card" [] [note, .slotTemplate "footer" [note]]]
    ∃ read, parse ((ofNodes nodes).toMarkdown false) = .ok (ofNodes read) ∧
      read.map Node.regrouped = nodes.map Node.regrouped := by
  intro note nodes
  have plain : note.IsOutline := .component (by decide) (by decide) (by simp)
  have footer : (Node.slotTemplate "footer" [note]).IsOutline := .slot (by decide) (by simp [plain]) (by decide)
  have card : ∀ node ∈ nodes, node.IsOutline :=
    List.forall_mem_singleton.2 (.component (by decide) (by decide) (by simp [plain, footer]))
  obtain ⟨read, parsed, stays⟩ :=
    parse_toMarkdown_regrouped_iff (by rfl : Markdown.parse [] = []) card (by decide) false
  exact ⟨read, parsed, stays.2 (by decide)⟩

/-- A component behind an empty slot is read back in the slot. -/
theorem component_behind_slot_moves :
    let note := Node.element "note" [] []
    let card := Node.element "card" [] [.slotTemplate "footer" [], note]
    let moved := Node.element "card" [] [.slotTemplate "footer" [note]]
    parse ((ofNodes [card]).toMarkdown false) = .ok (ofNodes [moved]) ∧ moved.regrouped ≠ card.regrouped := by
  intro note card moved
  have plain : note.IsOutline := .component (by decide) (by decide) (by simp)
  have footer : (Node.slotTemplate "footer" []).IsOutline := .slot (by decide) (by simp) (by simp)
  have outline : card.IsOutline := .component (by decide) (by decide) (by simp [plain, footer])
  have read := parse_toMarkdown_fenced (List.forall_mem_singleton.2 outline.fenced)
    (List.forall_mem_singleton.2 (by decide)) false (by rfl : Markdown.parse [] = [])
  have fewer : moved.regrouped.content.length ≠ card.regrouped.content.length := by decide
  exact ⟨read, fun same => fewer (by rw [same])⟩

end Tree

end ComponentMarkdown
