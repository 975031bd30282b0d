import ComponentMarkdown.Proofs.Markup.AttributeBlock
import ComponentMarkdown.Proofs.Markup.Rendering
import ComponentMarkdown.Proofs.Markup.Token

namespace ComponentMarkdown

namespace Node

/-- A component with readable attributes around such components and named slots, or a named slot around
such components. -/
inductive IsFenced : Node → Prop
  | component {tag : String} {attrs : Attrs} {children : List Node} (named : Token.isName tag.toList = true)
      (meaning : TagKind.ofTag tag = .component) (readable : AttributeBlock.isReadable attrs = true)
      (below : ∀ child ∈ children, IsFenced child) : IsFenced (.element tag attrs children)
  | slot {name : String} {children : List Node} (named : Token.isName name.toList = true)
      (below : ∀ child ∈ children, IsFenced child) (bare : ∀ child ∈ children, child.slotName? = none) :
      IsFenced (.element "template" [("v-slot:" ++ name, .str "")] children)

theorem slotName?_of_component {tag : String} (meaning : TagKind.ofTag tag = .component) (attrs : Attrs)
    (children : List Node) : (element tag attrs children).slotName? = none := by
  rw [slotName?, if_neg]
  rintro rfl
  exact absurd meaning (by decide)

theorem slotName?_slot {name : String} (named : Token.isName name.toList = true) (children : List Node) :
    (element "template" [("v-slot:" ++ name, .str "")] children).slotName? = some name := by
  have key : slotKey? ("v-slot:" ++ name) = some name := by
    obtain ⟨c, rest, same, _⟩ := Token.isName_cons named
    have chars : ("v-slot:" ++ name).toList = 'v' :: '-' :: 's' :: 'l' :: 'o' :: 't' :: ':' :: name.toList := by
      rw [String.toList_append]
      rfl
    rw [slotKey?, chars]
    simp only [same, List.isEmpty_cons, Bool.false_eq_true, if_false]
    rw [← same, String.ofList_toList]
  simp only [slotName?, if_true, Attrs.keys, List.map_cons, List.map_nil, List.findSome?_cons, key]

/-- Whether a node fills no slot. -/
def isBare (node : Node) : Bool := node.slotName?.isNone

theorem isBare_iff {node : Node} : node.isBare = true ↔ node.slotName? = none := Option.isNone_iff_eq_none

theorem isBare_of_slot {node : Node} {name : String} (fills : node.slotName? = some name) :
    node.isBare = false := by
  rw [isBare, fills]
  rfl

mutual

/-- The lines of a component at a depth, or of a slot inside a component of the depth below. -/
def fencedLines (depth : Nat) : Node → List (List Char)
  | .element tag attrs children =>
    match (Node.element tag attrs []).slotName? with
    | some name => ('#' :: name.toList) :: allFencedLines depth false children
    | none =>
      (List.replicate (depth + 2) ':' ++ (tag.toList ++ AttributeBlock.write attrs []))
        :: (allFencedLines (depth + 1) false children ++ [List.replicate (depth + 2) ':'])
  | _ => []

/-- The lines of siblings. An empty line stands between two components. -/
def allFencedLines (depth : Nat) (behindBare : Bool) : List Node → List (List Char)
  | [] => []
  | node :: rest =>
    (if behindBare && node.isBare then [[]] else [])
      ++ (node.fencedLines depth ++ allFencedLines depth node.isBare rest)

end

theorem fencedLines_component {tag : String} (meaning : TagKind.ofTag tag = .component) (attrs : Attrs)
    (children : List Node) (depth : Nat) : (element tag attrs children).fencedLines depth =
      (List.replicate (depth + 2) ':' ++ (tag.toList ++ AttributeBlock.write attrs []))
        :: (allFencedLines (depth + 1) false children ++ [List.replicate (depth + 2) ':']) := by
  rw [fencedLines, slotName?_of_component meaning]

theorem fencedLines_slot {name : String} (named : Token.isName name.toList = true) (children : List Node)
    (depth : Nat) : (element "template" [("v-slot:" ++ name, .str "")] children).fencedLines depth =
      ('#' :: name.toList) :: allFencedLines depth false children := by
  rw [fencedLines, slotName?_slot named]

theorem fencedLines_ne_nil {node : Node} (fenced : node.IsFenced) (depth : Nat) : node.fencedLines depth ≠ [] := by
  cases fenced with
  | component named meaning => rw [fencedLines_component meaning]; simp
  | slot named => rw [fencedLines_slot named]; simp

theorem allFencedLines_append_slot {node : Node} {name : String} (fills : node.slotName? = some name)
    (front rest : List Node) (depth : Nat) (behindBare : Bool) :
    allFencedLines depth behindBare (front ++ node :: rest) =
      allFencedLines depth behindBare front ++ (node.fencedLines depth ++ allFencedLines depth false rest) := by
  induction front generalizing behindBare with
  | nil =>
    rw [List.nil_append, allFencedLines, allFencedLines, isBare_of_slot fills, Bool.and_false]
    rfl
  | cons first more ih => rw [List.cons_append, allFencedLines, allFencedLines, ih]; simp only [List.append_assoc]

theorem allFencedLines_ne_nil {nodes : List Node} (some : nodes ≠ []) (fenced : ∀ node ∈ nodes, node.IsFenced)
    (depth : Nat) (behindBare : Bool) : allFencedLines depth behindBare nodes ≠ [] := by
  obtain ⟨node, rest, rfl⟩ := List.exists_cons_of_ne_nil some
  have here := fencedLines_ne_nil (fenced node List.mem_cons_self) depth
  rw [allFencedLines]
  simp [here]

theorem exists_line_of_fenced {node : Node} (fenced : node.IsFenced) (depth : Nat) :
    ∃ line ∈ node.fencedLines depth, line ≠ [] := by
  cases fenced with
  | component named meaning =>
    rw [fencedLines_component meaning]
    exact ⟨_, List.mem_cons_self, by simp⟩
  | slot named =>
    rw [fencedLines_slot named]
    exact ⟨_, List.mem_cons_self, by simp⟩

theorem join_allFencedLines_ne_nil {nodes : List Node} (some : nodes ≠ []) (fenced : ∀ node ∈ nodes, node.IsFenced)
    (depth : Nat) (behindBare : Bool) : Text.join ['\n'] (allFencedLines depth behindBare nodes) ≠ [] := by
  obtain ⟨node, rest, rfl⟩ := List.exists_cons_of_ne_nil some
  obtain ⟨line, member, nonempty⟩ := exists_line_of_fenced (fenced node List.mem_cons_self) depth
  refine Text.join_ne_nil_of_mem ?_ nonempty
  rw [allFencedLines]
  exact List.mem_append_right _ (List.mem_append_left _ member)

/-- A node that is written as a component on its lines. -/
structure WrittenFenced (node : Node) : Prop where
  fenced : node.IsFenced
  bare : node.slotName? = none
  free : node.fixedPlacement? = none
  block : ∀ depth, node.render.rendering.block depth = some (Text.join ['\n'] (node.fencedLines depth))

end Node

namespace Writer

open Node (render WrittenFenced allFencedLines)

theorem blockParts_fenced {nodes : List Node} (written : ∀ node ∈ nodes, WrittenFenced node) (depth : Nat)
    {before : Option Node} (apart : Node.neighbourPlace before ≠ some .inline) :
    blockParts depth none before (nodes.map render) = nodes.map fun node =>
    Text.join ['\n'] (node.fencedLines depth) := by
  induction nodes generalizing before with
  | nil => rfl
  | cons node rest ih =>
    obtain ⟨here, below⟩ := List.forall_mem_cons.1 written
    have behind : Node.neighbourPlace (some node) ≠ some .inline := by simp [Node.neighbourPlace, here.free]
    have next : Node.neighbourPlace rest.head? ≠ some .inline := by
      cases rest with
      | nil => simp [Node.neighbourPlace]
      | cons other more => simp [Node.neighbourPlace, (below other List.mem_cons_self).free]
    have block : Node.isInlineBetween before node rest.head? = false := by
      rw [Node.isInlineBetween_eq, here.free, decide_eq_false apart, decide_eq_false next]
      rfl
    rw [List.map_cons, blockParts, Node.render_node, Node.head?_map_render, block, here.block, ih below behind]
    rfl

/-- Components in a row are written on their lines, with empty lines between them. -/
theorem blocks_fenced {nodes : List Node} (written : ∀ node ∈ nodes, WrittenFenced node) (depth : Nat) :
    blocks (nodes.map render) depth blankLine = Text.join ['\n'] (allFencedLines depth false nodes) := by
  rw [blocks, blockParts_fenced written depth (by simp [Node.neighbourPlace])]
  induction nodes with
  | nil => rfl
  | cons node rest ih =>
    obtain ⟨here, below⟩ := List.forall_mem_cons.1 written
    have lines := Node.fencedLines_ne_nil here.fenced depth
    rw [List.map_cons, allFencedLines, Node.isBare_iff.2 here.bare, Bool.false_and,
      if_neg (by simp), List.nil_append]
    by_cases last : rest = []
    · subst last
      rw [List.map_nil, Text.join, allFencedLines, List.append_nil]
    · have later := Node.allFencedLines_ne_nil last (fun node member => (below node member).fenced) depth false
      have gap : allFencedLines depth true rest = [] :: allFencedLines depth false rest := by
        obtain ⟨next, more, rfl⟩ := List.exists_cons_of_ne_nil last
        rw [allFencedLines, allFencedLines, Node.isBare_iff.2 (below next List.mem_cons_self).bare]
        rfl
      rw [Text.join_cons (by simpa using last), ih below, gap, Text.join_append lines (by simp),
        Text.join_cons later]
      simp only [blankLine, List.nil_append, List.append_assoc, List.cons_append]

/-- The parts of a text are its lines in groups, none of which is empty. -/
def Groups (parts lines : List (List Char)) : Prop :=
  ∃ groups : List (List (List Char)), (∀ group ∈ groups, group ≠ [] ∧ Text.join ['\n'] group ≠ []) ∧
    parts = groups.map (Text.join ['\n']) ∧ groups.flatten = lines

namespace Groups

theorem nil : Groups [] [] := ⟨[], by simp, rfl, rfl⟩

theorem single {lines : List (List Char)} {line : List Char} (member : line ∈ lines) (some : line ≠ []) :
    Groups [Text.join ['\n'] lines] lines := by
  refine ⟨[lines], List.forall_mem_singleton.2 ?_, rfl, by simp⟩
  exact ⟨List.ne_nil_of_mem member, Text.join_ne_nil_of_mem member some⟩

theorem append {parts more lines others : List (List Char)} (first : Groups parts lines)
    (second : Groups more others) : Groups (parts ++ more) (lines ++ others) := by
  obtain ⟨groups, some, rfl, rfl⟩ := first
  obtain ⟨groups', some', rfl, rfl⟩ := second
  refine ⟨groups ++ groups', List.forall_mem_append.2 ⟨some, some'⟩, ?_, ?_⟩
  · rw [List.map_append]
  · rw [List.flatten_append]

/-- Parts between a first and a last line, each on lines of its own. -/
theorem between {parts lines : List (List Char)} (groups : Groups parts lines) (first last : List Char) :
    first ++ (parts.filter fun part => !part.isEmpty).flatMap ('\n' :: ·) ++ '\n' :: last =
      Text.join ['\n'] (first :: (lines ++ [last])) := by
  obtain ⟨groups, some, rfl, rfl⟩ := groups
  have kept : (groups.map (Text.join ['\n'])).filter (fun part => !part.isEmpty) =
    groups.map (Text.join ['\n']) := by
    rw [List.filter_eq_self]
    intro part member
    obtain ⟨group, listed, rfl⟩ := List.mem_map.1 member
    simpa using (some group listed).2
  have whole := @Text.join_map_join ['\n'] ([first] :: (groups ++ [[last]])) (by
    refine List.forall_mem_cons.2
      ⟨by simp, List.forall_mem_append.2 ⟨fun group listed => (some group listed).1, by simp⟩⟩)
  rw [List.flatten_cons, List.flatten_append, List.map_cons, List.map_append, Text.join_cons_eq_flatMap,
    List.flatMap_append] at whole
  rw [kept, List.append_assoc]
  simpa [Text.join] using whole

end Groups

/-- What a component needs of what stands in it: components are written on their lines, and the content of
slots is. -/
structure FitsFences (node : Node) : Prop where
  fenced : node.IsFenced
  bare : node.slotName? = none → WrittenFenced node
  slot : ∀ name, node.slotName? = some name → ∀ depth, ∃ body,
    node.fencedLines depth = ('#' :: name.toList) :: body ∧
    node.render.rendering.content depth blankLine = Text.join ['\n'] body ∧
      (body ≠ [] → Text.join ['\n'] body ≠ [])

theorem openRun_fenced {run : List Node} (written : ∀ node ∈ run, WrittenFenced node) (depth : Nat) :
    Groups
      (if (run.map render).reverse.isEmpty then [] else [blocks (run.map render).reverse.reverse depth blankLine])
      (allFencedLines depth false run) := by
  cases run with
  | nil => exact .nil
  | cons node rest =>
    obtain ⟨line, member, some⟩ := Node.exists_line_of_fenced (written node List.mem_cons_self).fenced depth
    rw [if_neg (by simp), List.reverse_reverse, blocks_fenced written]
    refine Groups.single ?_ some
    rw [allFencedLines]
    exact List.mem_append_right _ (List.mem_append_left _ member)

theorem slot_fenced {node : Node} (fits : FitsFences node) {name : String} (fills : node.slotName? = some name)
    (depth : Nat) :
    '#' :: name.toList ++ (if (node.render.rendering.content depth blankLine).isEmpty then []
      else '\n' :: node.render.rendering.content depth blankLine) = Text.join ['\n'] (node.fencedLines depth) := by
  obtain ⟨body, lines, content, nonempty⟩ := fits.slot name fills depth
  rw [lines, content]
  by_cases empty : body = []
  · subst empty
    simp [Text.join]
  · rw [if_neg (by simpa using nonempty empty), Text.join_cons empty, List.append_assoc]
    rfl

/-- The parts of a component's body are groups of its lines. -/
theorem segments_fenced {nodes : List Node} (fits : ∀ node ∈ nodes, FitsFences node) {run : List Node}
    (written : ∀ node ∈ run, WrittenFenced node) (depth : Nat) :
    Groups (segments depth (run.map render).reverse (nodes.map render))
    (allFencedLines depth false (run ++ nodes)) := by
  -- The components that were collected since the last slot are still in `run`.
  induction nodes generalizing run with
  | nil =>
    rw [List.map_nil, segments, List.append_nil]
    exact openRun_fenced written depth
  | cons node rest ih =>
    obtain ⟨here, below⟩ := List.forall_mem_cons.1 fits
    rw [List.map_cons, segments, Node.render_node]
    cases fills : node.slotName? with
    | none =>
      have longer := ih below (List.forall_mem_append.2 ⟨written, List.forall_mem_singleton.2 (here.bare fills)⟩)
      rw [List.map_append, List.reverse_append, List.append_assoc] at longer
      exact longer
    | some name =>
      obtain ⟨line, member, some⟩ := Node.exists_line_of_fenced here.fenced depth
      have back := ih below (List.forall_mem_nil WrittenFenced)
      rw [List.map_nil, List.reverse_nil, List.nil_append] at back
      have slot := Groups.single member some
      rw [← slot_fenced here fills] at slot
      rw [Node.allFencedLines_append_slot fills]
      exact (openRun_fenced written depth).append (slot.append back)

end Writer

namespace Node

theorem fitsFences {node : Node} (fenced : node.IsFenced) : Writer.FitsFences node := by
  induction fenced with
  | @component tag attrs children named meaning readable below ih =>
    have fenced := IsFenced.component named meaning readable below
    have bare := slotName?_of_component meaning attrs children
    refine ⟨fenced,
      fun _ => ⟨fenced, bare, fixedPlacement?_of_component meaning attrs children, fun depth => ?_⟩, ?_⟩
    · have groups := Writer.segments_fenced ih (List.forall_mem_nil WrittenFenced) (depth + 1)
      rw [List.map_nil, List.reverse_nil, List.nil_append] at groups
      rw [block_render_component meaning, fencedLines_component meaning, ← groups.between, Writer.component]
      simp only [List.append_assoc]
    · intro name fills
      rw [bare] at fills
      cases fills
  | @slot name children named below bare ih =>
    have fenced := IsFenced.slot named below bare
    refine ⟨fenced, fun bare' => ?_, fun name' fills depth => ?_⟩
    · rw [slotName?_slot named] at bare'
      cases bare'
    · rw [slotName?_slot named] at fills
      cases fills
      have written : ∀ child ∈ children, WrittenFenced child :=
        fun child member => (ih child member).bare (bare child member)
      refine ⟨allFencedLines depth false children, fencedLines_slot named children depth, ?_, fun some => ?_⟩
      · rw [render, renderAll_eq_map]
        exact Writer.blocks_fenced written depth
      · have nonempty : children ≠ [] := by
          rintro rfl
          exact some rfl
        exact join_allFencedLines_ne_nil nonempty below depth false

end Node

namespace Tree

/-- Components without anything around them are written on their lines. -/
theorem toMarkdown_fenced {nodes : List Node} (fenced : ∀ node ∈ nodes, node.IsFenced)
    (bare : ∀ node ∈ nodes, node.slotName? = none) (skipFrontmatter : Bool) :
    ((ofNodes nodes).toMarkdown skipFrontmatter).toList =
      if nodes = [] then [] else Text.join ['\n'] (Node.allFencedLines 0 false nodes) ++ ['\n'] := by
  have written : ∀ node ∈ nodes, node.WrittenFenced := fun node member =>
    (Node.fitsFences (fenced node member)).bare (bare node member)
  have frontmatter : (if skipFrontmatter then [] else Writer.frontmatter (ofNodes nodes).frontmatter) = [] := by
    cases skipFrontmatter <;> rfl
  rw [toMarkdown, frontmatter, List.nil_append, String.toList_ofList, bodyText, ofNodes, Node.renderAll_eq_map,
    Writer.blocks_fenced written]
  by_cases empty : nodes = []
  · subst empty
    rfl
  · have some := Node.join_allFencedLines_ne_nil empty fenced 0 false
    simp only [List.isEmpty_iff, some, empty, if_false]

end Tree

end ComponentMarkdown
