import ComponentMarkdown.Proofs.Markup.FencedRoundTrip
import ComponentMarkdown.Proofs.Markup.LineEnds
import ComponentMarkdown.Proofs.Markup.Seamless

namespace ComponentMarkdown

namespace Text

/-- Every line of a text is a line of the text it was cut from, or the start of one. -/
theorem exists_of_mem_linesOfParts {parts : List (List Char)} {line : List Char}
    (member : line ∈ linesOfParts parts) : ∃ part ∈ parts, line <+: part := by
  induction parts with
  | nil => cases member
  | cons part rest ih =>
    by_cases last : rest = []
    · subst last
      cases part with
      | nil => cases member
      | cons => exact ⟨line, member, List.prefix_rfl⟩
    · have behind := linesOfParts_append [part] last
      rw [List.singleton_append] at behind
      rw [behind, List.map_singleton, List.singleton_append, List.mem_cons] at member
      rcases member with rfl | later
      · exact ⟨part, List.mem_cons_self, dropReturn_prefix part⟩
      · obtain ⟨other, listed, start⟩ := ih later
        exact ⟨other, List.mem_cons_of_mem _ listed, start⟩

theorem feed_not_mem_of_mem_lines {s line : List Char} (member : line ∈ lines s) : '\n' ∉ line := by
  obtain ⟨part, listed, start⟩ := exists_of_mem_linesOfParts member
  exact fun inside => not_mem_of_mem_splitOn listed (start.subset inside)

end Text

namespace Writer

open Text (Calm Unruled)

theorem unruled_itemMark (ordered : Bool) (start index : Nat) (line : List Char) :
    Unruled (itemMark ordered start index ++ line) := by
  have mark : Unruled (itemMark ordered start index) := by
    cases ordered with
    | false => exact Or.inr ⟨' ', List.mem_cons_of_mem _ List.mem_cons_self, by decide⟩
    | true =>
      refine Text.unruled_of_not_mem ?_
      obtain ⟨_, digits, _⟩ := AttributeBlock.repr_nat ((start + index) % numberLimit)
      rw [itemMark, if_pos rfl, List.mem_append, not_or]
      exact ⟨fun member => absurd (digits _ member) (by decide), by decide⟩
  refine mark.append_of_ne_nil ?_ line
  obtain ⟨c, rest, same, _⟩ := (isMark_itemMark ordered start index).first
  simp [same]

/-- The lines of a list start with a mark or are indented, whatever the list holds. -/
theorem calm_list (ordered : Bool) (start : Nat) (items : List Rendered) (depth : Nat) :
    Calm (list ordered start items depth) := by
  rw [list_eq]
  refine Token.forall_mem_splitOn_join (separatorOf_cases items) .nil fun part member => ?_
  obtain ⟨entry, _, rfl⟩ := List.mem_map.1 member
  have mark := isMark_itemMark ordered start entry.2
  obtain ⟨first, rest, parts⟩ := List.exists_cons_of_ne_nil
    (Text.splitOn_ne_nil '\n' (itemContent (separatorOf items) depth entry.1))
  rw [splitOn_itemText mark.oneLine parts]
  refine List.forall_mem_cons.2
    ⟨unruled_itemMark ordered start entry.2 first, List.forall_mem_map.2 fun line _ => ?_⟩
  by_cases empty : line = []
  · subst empty
    exact .nil
  · rw [indented_of_ne_nil _ empty]
    obtain ⟨width, wide⟩ := Nat.exists_eq_add_of_le' (Nat.le_of_succ_le mark.wide)
    rw [wide, List.replicate_succ, List.cons_append]
    exact Text.unruled_of_head (by decide) _

/-- The lines of a quotation are marked, whatever it holds. -/
theorem calm_blockquote (items : List Rendered) (depth : Nat) : Calm (blockquote items depth) := by
  refine Token.forall_mem_splitOn_join (Or.inl rfl) .nil (List.forall_mem_map.2 fun line member => ?_)
  have oneLine := Text.feed_not_mem_of_mem_lines member
  split
  · exact Text.calm_of_line (by decide) (by decide)
  · exact Text.calm_of_line (by decide) (by simp [oneLine])

end Writer

namespace Text.Seamless

open Node (render)

variable {P : List Char → Prop} (seamless : Seamless P)

include seamless

theorem heading {items : List Rendered} (inlines : P (Writer.inlines false items)) (level : Nat) :
    P (Writer.heading level items) :=
  seamless.append (seamless.plain fun member => absurd (List.eq_of_mem_replicate member) (by decide))
    (seamless.cons (by decide) inlines)

/-- What a node is written as on lines of its own, unless it is a rule or a component. -/
theorem block {node : Node} (whole : node.HasNoRule P)
    (kind : ∀ tag ∈ node.tag?, tag ∈ Writer.blockTags ∧ tag ≠ "hr")
    (depth : Nat) : ∀ text ∈ node.render.rendering.block depth, P text := by
  have written : ∀ {text : List Char}, P text → ∀ other ∈ some text, P other := fun holds _ same =>
    Option.mem_some_iff.1 same ▸ holds
  cases node with
  | text content => exact written (seamless.inline whole false)
  | comment content => exact written (seamless.inline whole false)
  | element tag attrs children =>
    obtain ⟨listed, other⟩ := kind tag rfl
    have items := seamless.inlines (fun child member => seamless.inline (whole.child member)) false
    have heading := seamless.heading items
    rw [render, Node.renderAll_eq_map]
    simp only [Writer.blockElement]
    split
    case h_1 => exact written items
    case h_8 => exact absurd rfl other
    case h_9 => exact written (seamless.calm (Writer.calm_blockquote _ _))
    case h_10 => exact written (seamless.calm (Writer.calm_list _ _ _ _))
    case h_11 => exact written (seamless.calm (Writer.calm_list _ _ _ _))
    case h_12 => exact written (seamless.code whole.own whole.textOf)
    case h_13 => exact written (seamless.plain whole.textOf)
    case h_14 => simp
    case h_15 => simp_all [Writer.blockTags]
    all_goals exact written (heading _)

end Text.Seamless

namespace Text

/-- A text of which the lines are rules or come nowhere near one. -/
def RulesOnly (s : List Char) : Prop := ∀ line ∈ splitOn '\n' s, Unruled line ∨ line = rule

/-- How many lines of a text are rules. -/
def rulesIn (s : List Char) : Nat := (splitOn '\n' s).count rule

theorem not_unruled_rule : ¬ Unruled rule := not_unruled_rule_append []

theorem Calm.rulesOnly {s : List Char} (calm : Calm s) : RulesOnly s := fun line member => Or.inl (calm line member)

theorem rulesIn_append_cons (s t : List Char) : rulesIn (s ++ '\n' :: t) = rulesIn s + rulesIn t := by
  rw [rulesIn, splitOn_append_cons, List.count_append, rulesIn, rulesIn]

/-- Parts of a text with so many rules in all of them, and nothing else that could be one. -/
structure Ruled (parts : List (List Char)) (rules : Nat) : Prop where
  only : ∀ part ∈ parts, RulesOnly part
  count : (parts.flatMap (splitOn '\n')).count rule = rules

namespace Ruled

variable {parts more : List (List Char)} {rules rules' : Nat}

theorem nil : Ruled [] 0 := ⟨nofun, rfl⟩

theorem append (first : Ruled parts rules) (second : Ruled more rules') : Ruled (parts ++ more) (rules + rules') :=
  ⟨List.forall_mem_append.2 ⟨first.only, second.only⟩, by
    rw [List.flatMap_append, List.count_append, first.count, second.count]⟩

theorem of_calm (calm : ∀ part ∈ parts, Calm part) : Ruled parts 0 := by
  refine ⟨fun part member => (calm part member).rulesOnly, List.count_eq_zero.2 fun member => ?_⟩
  obtain ⟨part, listed, inside⟩ := List.mem_flatMap.1 member
  exact not_unruled_rule (calm part listed rule inside)

theorem calm_single {s : List Char} (calm : Calm s) : Ruled [s] 0 := of_calm (List.forall_mem_singleton.2 calm)

/-- What is written line by line keeps its rules. -/
theorem join (ruled : Ruled parts rules) {separator : List Char} (separates : Token.Separates separator) :
    Ruled [Text.join separator parts] rules := by
  have behind : ∀ s t, rulesIn (s ++ separator ++ t) = rulesIn s + rulesIn t := by
    intro s t
    rcases separates with rfl | rfl
    · rw [List.append_assoc, List.singleton_append, rulesIn_append_cons]
    · have empty : rulesIn ([] ++ '\n' :: t) = 0 + rulesIn t := rulesIn_append_cons [] t
      rw [Writer.blankLine, List.append_assoc, List.cons_append, List.singleton_append, rulesIn_append_cons]
      rw [List.nil_append, Nat.zero_add] at empty
      rw [empty]
  have all : ∀ parts : List (List Char),
      rulesIn (Text.join separator parts) = (parts.flatMap (splitOn '\n')).count rule := by
    intro parts
    induction parts with
    | nil => rfl
    | cons part rest ih =>
      by_cases last : rest = []
      · subst last
        simp [Text.join, rulesIn]
      · rw [join_cons last, behind, ih, List.flatMap_cons, List.count_append, rulesIn]
  refine ⟨List.forall_mem_singleton.2 ?_, ?_⟩
  · exact Token.forall_mem_splitOn_join separates (Or.inl .nil) ruled.only
  · rw [List.flatMap_singleton, ← rulesIn, all, ruled.count]

/-- Empty parts have no rules. -/
theorem filter (ruled : Ruled parts rules) : Ruled (parts.filter fun part => !part.isEmpty) rules := by
  refine ⟨fun part member => ruled.only part (List.mem_of_mem_filter member), ?_⟩
  rw [← ruled.count]
  clear ruled
  induction parts with
  | nil => rfl
  | cons part rest ih =>
    cases part with
    | nil =>
      have empty : (splitOn '\n' []).count rule = 0 := rfl
      simpa [List.flatMap_cons, List.count_append, empty] using ih
    | cons => simpa [List.flatMap_cons, List.count_append] using ih

end Ruled

end Text

namespace Node

mutual

/-- How many rules a node has at the start of a line. Those in a list or a quotation have a mark or an indentation
in front of them, and those inside a line of text are no rules. -/
def bareRules : Node → Nat
  | .element tag _ children =>
    if tag = "hr" then 1 else if tag ∈ Writer.blockTags then 0 else bareRulesBehind none children
  | _ => 0

/-- The rules at the start of a line that siblings have behind a node. -/
def bareRulesBehind : Option Node → List Node → Nat
  | _, [] => 0
  | before, node :: rest =>
    (if isInlineBetween before node rest.head? then 0 else node.bareRules) + bareRulesBehind (some node) rest

end

/-- Whether the first node that is written is a rule. -/
def opensWithRule (nodes : List Node) : Bool :=
  (nodes.find? fun node => node.tag? ≠ some "style").any fun node => node.tag? = some "hr"

/-- A block ends the line in front of it, so the rules behind it are counted afresh. -/
theorem bareRulesBehind_append {node : Node} (place : node.fixedPlacement? = some .block) (before : Option Node)
    (front rest : List Node) : bareRulesBehind before (front ++ node :: rest) =
      bareRulesBehind before front + (node.bareRules + bareRulesBehind none rest) := by
  have apart : node.fixedPlacement? ≠ some .inline := by simp [place]
  induction front generalizing before with
  | nil =>
    have behind : bareRulesBehind (some node) rest = bareRulesBehind none rest := by
      cases rest with
      | nil => rw [bareRulesBehind, bareRulesBehind]
      | cons next more => rw [bareRulesBehind, bareRulesBehind, isInlineBetween_behind apart]
    have here := isInlineBetween_of_block place before rest.head?
    rw [List.nil_append, bareRulesBehind, bareRulesBehind, here, behind]
    simp
  | cons first more ih =>
    rw [List.cons_append, bareRulesBehind, bareRulesBehind, isInlineBetween_head?_append apart, ih, Nat.add_assoc]

/-- How a node is written as lines: calmly inside a line, and with its rules on lines of its own. -/
structure WritesRules (node : Node) : Prop where
  inline : ∀ afterBacktick, Text.Calm (node.render.rendering.inline afterBacktick)
  block : ∀ depth, Text.Ruled (node.render.rendering.block depth).toList node.bareRules
  slot : ∀ name, node.slotName? = some name → Text.Calm ('#' :: name.toList) ∧
    ∀ depth, Text.Ruled [node.render.rendering.content depth Writer.blankLine] node.bareRules

end Node

namespace Writer

open Node (render bareRulesBehind)
open Text (Calm Ruled)

variable {nodes : List Node} (each : ∀ node ∈ nodes, node.WritesRules)

include each

theorem ruled_blockParts (depth : Nat) (before : Option Node) {line : Option (List Char)}
    (calm : ∀ text ∈ line, Calm text) :
    Ruled (blockParts depth line before (nodes.map render)) (bareRulesBehind before nodes) := by
  have written : ∀ {line : Option (List Char)}, (∀ text ∈ line, Calm text) → Ruled line.toList 0 := fun calm =>
    .of_calm fun text member => calm text (Option.mem_toList.1 member)
  induction nodes generalizing before line with
  | nil =>
    rw [bareRulesBehind]
    exact written calm
  | cons node rest ih =>
    obtain ⟨here, below⟩ := List.forall_mem_cons.1 each
    rw [List.map_cons, blockParts, bareRulesBehind, Node.render_node, Node.head?_map_render]
    split
    · rw [Nat.zero_add]
      refine ih below (some node) fun text same => ?_
      have start : Calm (line.getD []) := by
        cases line with
        | none => exact Text.seamless_calm.nil
        | some text => exact calm text rfl
      rw [← Option.some.inj same]
      exact start.append (here.inline _)
    · have behind := @ih below (some node) none (by simp)
      have rules := ((written calm).append (here.block depth)).append behind
      rwa [Nat.zero_add] at rules

theorem ruled_blocks (depth : Nat) :
    Ruled [blocks (nodes.map render) depth blankLine] (bareRulesBehind none nodes) := by
  have parts : Ruled (blockParts depth none none (nodes.map render)) (bareRulesBehind none nodes) :=
    ruled_blockParts each depth none (by simp)
  exact parts.join (Or.inr rfl)

/-- The body of a component has the rules of its children, those in its slots included. The part that is open is the
children in front. -/
theorem ruled_segments (depth : Nat) {front : List Node} (each' : ∀ node ∈ front, node.WritesRules) :
    Ruled (segments depth (front.map render).reverse (nodes.map render))
    (bareRulesBehind none (front ++ nodes)) := by
  have opened : ∀ {front : List Node}, (∀ node ∈ front, node.WritesRules) →
      Ruled (if (front.map render).reverse.isEmpty then [] else
        [blocks (front.map render).reverse.reverse depth blankLine]) (bareRulesBehind none front) := by
    intro front each
    cases front with
    | nil =>
      rw [bareRulesBehind]
      exact .nil
    | cons node rest =>
      rw [if_neg (by simp), List.reverse_reverse]
      exact ruled_blocks each depth
  induction nodes generalizing front with
  | nil =>
    rw [List.append_nil]
    exact opened each'
  | cons node rest ih =>
    obtain ⟨here, below⟩ := List.forall_mem_cons.1 each
    rw [List.map_cons, segments, Node.render_node]
    cases slot : node.slotName? with
    | none =>
      have run := @ih below (front ++ [node]) (List.forall_mem_append.2 ⟨each', List.forall_mem_singleton.2 here⟩)
      simpa using run
    | some name =>
      obtain ⟨calm, content⟩ := here.slot name slot
      have place : node.fixedPlacement? = some .block := by
        cases node with
        | element tag attrs children =>
          rw [Node.slotName?] at slot
          split at slot
          · rename_i template
            subst template
            rfl
          · cases slot
        | _ => cases slot
      have title : Ruled [('#' :: name.toList) ++
          if (node.render.rendering.content depth blankLine).isEmpty then [] else
            '\n' :: node.render.rendering.content depth blankLine] node.bareRules := by
        have lines := (Ruled.calm_single calm).append (content depth)
        rw [Nat.zero_add] at lines
        split
        · rename_i empty
          rw [List.isEmpty_iff.1 empty] at lines
          simpa using lines.filter
        · simpa [Text.join] using lines.join (Or.inl rfl)
      rw [Node.bareRulesBehind_append place]
      exact (opened each').append (title.append (@ih below [] (List.forall_mem_nil _)))

end Writer

namespace Node

theorem ruled_component {tag : String} {attrs : Attrs} {children : List Node}
    (whole : HasNoRule Text.Calm (element tag attrs children)) (each : ∀ child ∈ children, child.WritesRules)
    (depth : Nat) :
    Text.Ruled [Writer.component tag attrs (children.map render) depth] (bareRulesBehind none children) := by
  have colons : ∀ n, Text.Calm (List.replicate n ':') := fun n =>
    Text.calm_of_not_mem fun member => absurd (List.eq_of_mem_replicate member) (by decide)
  have head : Text.Calm (List.replicate (depth + 2) ':' ++ tag.toList ++ AttributeBlock.write attrs []) := by
    have block := Text.seamless_calm.attributeBlock whole.own []
    rw [List.replicate_succ', List.append_assoc (List.replicate _ _), List.singleton_append]
    exact ((colons _).append whole.name).append block
  have body : Text.Ruled (Writer.segments (depth + 1) [] (children.map render)) (bareRulesBehind none children) :=
    @Writer.ruled_segments children each (depth + 1) [] (List.forall_mem_nil _)
  have parts := (Text.Ruled.calm_single head).append (body.filter.append (.calm_single (colons (depth + 2))))
  have lines := parts.join (Or.inl rfl)
  rw [List.singleton_append, Text.join_cons_eq_flatMap, List.flatMap_append] at lines
  rw [Writer.component]
  simpa using lines

theorem writesRules {node : Node} (whole : node.HasNoRule Text.Calm) : node.WritesRules := by
  induction node using Node.induction with
  | text content =>
    refine ⟨Text.seamless_calm.inline whole, fun depth => ?_, nofun⟩
    exact .of_calm fun text member => Text.seamless_calm.block whole nofun depth text (Option.mem_toList.1 member)
  | comment content =>
    refine ⟨Text.seamless_calm.inline whole, fun depth => ?_, nofun⟩
    exact .of_calm fun text member => Text.seamless_calm.block whole nofun depth text (Option.mem_toList.1 member)
  | element tag attrs children ih =>
    have each := fun child member => ih child member (whole.child member)
    refine ⟨Text.seamless_calm.inline whole, fun depth => ?_, fun name slot => ?_⟩
    · rw [bareRules]
      split
      · rename_i same
        subst same
        exact ⟨List.forall_mem_singleton.2 (List.forall_mem_singleton.2 (Or.inr rfl)), rfl⟩
      · rename_i other
        split
        · rename_i listed
          have kind : ∀ tag' ∈ (element tag attrs children).tag?, tag' ∈ Writer.blockTags ∧ tag' ≠ "hr" :=
            fun tag' same => Option.some.inj same ▸ ⟨listed, other⟩
          exact .of_calm fun text member =>
            Text.seamless_calm.block whole kind depth text (Option.mem_toList.1 member)
        · rename_i component
          rw [block_render_of_not_mem component]
          exact ruled_component whole each depth
    · rw [slotName?] at slot
      split at slot
      · rename_i template
        subst template
        obtain ⟨key, listed, named⟩ := List.exists_of_findSome?_eq_some slot
        obtain ⟨entry, member, rfl⟩ := List.mem_map.1 listed
        have free := (Attrs.isHyphenFreeEntry_iff.1 (List.all_eq_true.1 whole.own entry member)).1
        rw [named, Option.getD_some] at free
        refine ⟨Text.seamless_calm.cons (by decide) (Text.calm_of_not_mem free), fun depth => ?_⟩
        have inside := Writer.ruled_blocks each depth
        rw [render, renderAll_eq_map, bareRules]
        exact inside
      · cases slot

end Node

namespace Text

theorem calmStart_of_head {c : Char} (other : c ≠ '-') (line : c ≠ '\n') (rest : List Char) :
    CalmStart (c :: rest) := by
  obtain ⟨first, more, parts⟩ := List.exists_cons_of_ne_nil (splitOn_ne_nil '\n' rest)
  rw [CalmStart, splitOn, if_neg line, parts]
  exact fun line same => Option.some.inj same ▸ unruled_of_head other first

/-- The first line of parts is that of the first part. -/
theorem head?_splitOn_join (part : List Char) (parts : List (List Char)) :
    (splitOn '\n' (join Writer.blankLine (part :: parts))).head? = (splitOn '\n' part).head? := by
  obtain ⟨gap, _, behind⟩ := Token.exists_gap (Or.inr rfl : Token.Separates Writer.blankLine)
  rw [behind, List.head?_append_of_ne_nil _ (splitOn_ne_nil _ _)]

end Text

namespace Node

theorem opensWithRule_cons (node : Node) (rest : List Node) : opensWithRule (node :: rest) =
    if node.tag? = some "style" then opensWithRule rest else decide (node.tag? = some "hr") := by
  rw [opensWithRule, List.find?_cons]
  split <;> simp_all [opensWithRule]

theorem tag_of_block_eq_none {node : Node} {depth : Nat} (hidden : node.render.rendering.block depth = none) :
    node.tag? = some "style" := by
  cases node with
  | element tag attrs children =>
    rw [render, renderAll_eq_map] at hidden
    simp only [Writer.blockElement] at hidden
    split at hidden
    case h_14 => rfl
    all_goals cases hidden
  | _ => cases hidden

theorem calmStart_block {node : Node} (whole : node.HasNoRule Text.CalmStart) (other : node.tag? ≠ some "hr")
    (depth : Nat) : ∀ text ∈ node.render.rendering.block depth, Text.CalmStart text := by
  have seamless := Text.seamless_calmStart
  cases node with
  | text => exact seamless.block whole nofun depth
  | comment => exact seamless.block whole nofun depth
  | element tag attrs children =>
    by_cases listed : tag ∈ Writer.blockTags
    · refine seamless.block whole (fun tag' same => ?_) depth
      obtain rfl := Option.some.inj same
      exact ⟨listed, fun hr => other (congrArg some hr)⟩
    · rw [block_render_of_not_mem listed]
      exact fun text same => Option.some.inj same ▸ Text.calmStart_of_head (by decide) (by decide) _

end Node

namespace Writer

open Node (render opensWithRule)
open Text (CalmStart)

/-- The first part that is written is calm at its start, unless a rule opens the list. -/
theorem calmStart_blockParts {nodes : List Node} (whole : ∀ node ∈ nodes, node.HasNoRule CalmStart) (depth : Nat)
    (before : Option Node) {line : Option (List Char)} (calm : ∀ text ∈ line, CalmStart text)
    (other : line = none → opensWithRule nodes = false) :
    ∀ part ∈ (blockParts depth line before (nodes.map render)).head?, CalmStart part := by
  induction nodes generalizing before line with
  | nil =>
    cases line with
    | none =>
      rw [List.map_nil, blockParts]
      simp
    | some text => exact calm
  | cons node rest ih =>
    obtain ⟨here, below⟩ := List.forall_mem_cons.1 whole
    rw [List.map_cons, blockParts, Node.render_node, Node.head?_map_render]
    split
    · refine @ih below (some node) (some _) (fun text same => ?_) (by simp)
      have start : CalmStart (line.getD []) := by
        cases line with
        | none => exact Text.seamless_calmStart.nil
        | some text => exact calm text rfl
      rw [← Option.some.inj same]
      exact start.append (Text.seamless_calmStart.inline here _)
    · cases line with
      | some text => exact calm
      | none =>
        have first := other rfl
        rw [Node.opensWithRule_cons] at first
        cases written : node.render.rendering.block depth with
        | some text =>
          have shown : node.tag? ≠ some "hr" := by
            intro hr
            rw [hr] at first
            simp at first
          intro part same
          exact Option.some.inj same ▸ Node.calmStart_block here shown depth text written
        | none =>
          rw [if_pos (Node.tag_of_block_eq_none written)] at first
          exact @ih below (some node) none (by simp) fun _ => first

theorem head?_blockParts_of_rule {nodes : List Node} (opens : opensWithRule nodes = true) (depth : Nat)
    (before : Option Node) : (blockParts depth none before (nodes.map render)).head? = some Text.rule := by
  induction nodes generalizing before with
  | nil => cases opens
  | cons node rest ih =>
    rw [Node.opensWithRule_cons] at opens
    have block : ∀ {tag : String}, node.tag? = some tag → Placement.ofTag? tag = some .block →
        Node.isInlineBetween before node rest.head? = false := by
      intro tag same place
      refine Node.isInlineBetween_of_block ?_ before rest.head?
      cases node with
      | element => exact Option.some.inj same ▸ place
      | _ => cases same
    rw [List.map_cons, blockParts, Node.render_node, Node.head?_map_render]
    split at opens
    · rename_i style
      have hidden : node.render.rendering.block depth = none := by
        cases node with
        | element => exact Option.some.inj style ▸ rfl
        | _ => cases style
      rw [block style (by decide), if_neg (by simp), hidden]
      exact ih opens (some node)
    · have hr := of_decide_eq_true opens
      have dashes : node.render.rendering.block depth = some Text.rule := by
        cases node with
        | element => exact Option.some.inj hr ▸ rfl
        | _ => cases hr
      rw [block hr (by decide), if_neg (by simp), dashes]
      rfl

end Writer

namespace Frontmatter

open Text (Unruled CalmStart RulesOnly rulesIn rule)

theorem isMark_of_unruled {line : List Char} (unruled : Unruled line) (ended : Bool) :
    isMark ended line = false := by
  have other : ∀ {cut : List Char} {rest : List Char}, cut <+: line → cut ≠ '-' :: '-' :: '-' :: rest := by
    rintro _ rest ⟨tail, rfl⟩ rfl
    exact Text.not_unruled_rule_append (rest ++ tail) unruled
  rw [isMark]
  split
  · rename_i marked
    split at marked
    · exact absurd marked (other (Text.dropReturn_prefix line))
    · exact absurd marked (other List.prefix_rfl)
  · rfl

theorem isMark_rule (ended : Bool) : isMark ended rule = true := by
  cases ended <;> decide

theorem split_of_calmStart {source : String} (calm : CalmStart source.toList) : split source = ⟨none, source⟩ := by
  rw [split]
  split
  · rename_i opening first rest parts
    rw [CalmStart, parts] at calm
    rw [isMark_of_unruled (calm opening rfl)]
    rfl
  · rfl

theorem lazily_mark?_eq_none_iff {lines : List (List Char)} (only : ∀ line ∈ lines, Unruled line ∨ line = rule) :
    lazily mark? lines = none ↔ rule ∉ lines := by
  induction lines with
  | nil => simp [lazily_mark?_nil]
  | cons line rest ih =>
    obtain ⟨here, below⟩ := List.forall_mem_cons.1 only
    rw [lazily_mark?_cons]
    rcases here with unruled | rfl
    · have other : rule ≠ line := fun same => Text.not_unruled_rule (same ▸ unruled)
      rw [isMark_of_unruled unruled, if_neg (by simp), Option.map_eq_none_iff, ih below]
      simp [other]
    · rw [isMark_rule]
      simp

theorem block?_eq_none_iff {lines : List (List Char)} (only : ∀ line ∈ lines, Unruled line ∨ line = rule) :
    block? lines = none ↔ rule ∉ lines := by
  cases lines with
  | nil => exact ⟨fun _ => List.not_mem_nil, fun _ => rfl⟩
  | cons first rest =>
    obtain ⟨here, below⟩ := List.forall_mem_cons.1 only
    have behind := lazily_mark?_eq_none_iff below
    rw [block?_cons]
    cases parts : lazily mark? rest with
    | some cut =>
      rw [parts] at behind
      have inside : rule ∈ rest := by simpa using behind
      simp [inside]
    | none =>
      have outside := behind.1 parts
      rcases here with unruled | rfl
      · have other : rule ≠ first := fun same => Text.not_unruled_rule (same ▸ unruled)
        simp [isMark_of_unruled unruled, other, outside]
      · simp [isMark_rule]

/-- A text of which the lines are rules or come nowhere near one has a frontmatter block if and only if it starts
with a rule and has another one. -/
theorem split_eq_none_iff {source : String} (only : RulesOnly source.toList) : split source = ⟨none, source⟩ ↔
    ¬ ((Text.splitOn '\n' source.toList).head? = some rule ∧ 2 ≤ rulesIn source.toList) := by
  rw [rulesIn]
  rw [RulesOnly] at only
  rw [split]
  rcases parts : Text.splitOn '\n' source.toList with _ | ⟨opening, _ | ⟨first, rest⟩⟩
  · simp
  · have few : [opening].count rule ≤ 1 := List.count_le_length
    simp
    omega
  · rw [parts, List.forall_mem_cons] at only
    obtain ⟨here, below⟩ := only
    have block := block?_eq_none_iff below
    have more : 2 ≤ (rule :: first :: rest).count rule ↔ rule ∈ first :: rest := by
      rw [List.count_cons_self, ← List.one_le_count_iff]
      omega
    rcases here with unruled | rfl
    · have other : opening ≠ rule := fun same => Text.not_unruled_rule (same ▸ unruled)
      simp [isMark_of_unruled unruled, other]
    · rw [more]
      simp only [isMark_rule, if_true, List.head?_cons, true_and]
      cases cut : block? (first :: rest) with
      | none => simpa using block.1 cut
      | some pair => 
        have inside : rule ∈ first :: rest := by
          by_contra outside
          rw [block.2 outside] at cut
          cases cut
        simp [inside]

end Frontmatter

namespace Tree

open Node (bareRulesBehind opensWithRule)

theorem toList_toMarkdown {tree : Tree} (bare : tree.frontmatter = .null ∨ tree.frontmatter = .obj []) :
    (tree.toMarkdown false).toList = tree.bodyText := by
  have none : Writer.frontmatter tree.frontmatter = [] := by
    rcases bare with same | same <;> rw [same] <;> rfl
  rw [toMarkdown, String.toList_ofList, none]
  rfl

theorem bodyText_cases (tree : Tree) : ∃ parts, parts = Writer.blockParts 0 none none (tree.nodes.map Node.render) ∧
    ((Text.join Writer.blankLine parts = [] ∧ tree.bodyText = []) ∨
      tree.bodyText = Text.join Writer.blankLine parts ++ ['\n']) := by
  refine ⟨_, rfl, ?_⟩
  rw [bodyText, Node.renderAll_eq_map, Writer.blocks]
  split
  · rename_i empty
    exact Or.inl ⟨List.isEmpty_iff.1 empty, rfl⟩
  · exact Or.inr rfl

/-- The first line of a document is a rule if and only if the first node that is written is one. -/
theorem calmStart_bodyText {tree : Tree} (whole : ∀ node ∈ tree.nodes, node.HasNoRule Text.CalmStart)
    (other : opensWithRule tree.nodes = false) : Text.CalmStart tree.bodyText := by
  have seamless := Text.seamless_calmStart
  obtain ⟨parts, same, ⟨_, empty⟩ | written⟩ := bodyText_cases tree
  · rw [empty]
    exact seamless.nil
  · rw [written]
    refine seamless.append ?_ (seamless.plain (by decide))
    have first := @Writer.calmStart_blockParts _ whole 0 none none (by simp) fun _ => other
    rw [← same] at first
    cases parts with
    | nil => exact seamless.nil
    | cons part rest =>
      rw [Text.CalmStart, Text.head?_splitOn_join]
      exact first part rfl

theorem head?_bodyText_of_rule {tree : Tree} (opens : opensWithRule tree.nodes = true) :
    (Text.splitOn '\n' tree.bodyText).head? = some Text.rule := by
  have first := Writer.head?_blockParts_of_rule opens 0 none
  obtain ⟨parts, same, cut⟩ := bodyText_cases tree
  rw [← same] at first
  obtain ⟨rest, rfl⟩ := List.head?_eq_some_iff.1 first
  have line := Text.head?_splitOn_join Text.rule rest
  rcases cut with ⟨empty, _⟩ | written
  · rw [empty] at line
    cases line
  · rw [written, Text.splitOn_append_cons, List.head?_append_of_ne_nil _ (Text.splitOn_ne_nil _ _), line]
    rfl

theorem ruled_bodyText {tree : Tree} (whole : ∀ node ∈ tree.nodes, node.HasNoRule Text.Calm) :
    Text.Ruled [tree.bodyText] (bareRulesBehind none tree.nodes) := by
  have each := fun node member => Node.writesRules (whole node member)
  have body := Writer.ruled_blocks each 0
  rw [Writer.blocks] at body
  obtain ⟨parts, same, ⟨empty, blank⟩ | written⟩ := bodyText_cases tree
  · rwa [← same, empty, ← blank] at body
  · have lines := (body.append (.calm_single Text.seamless_calm.nil)).join (Or.inl rfl)
    rwa [← same, List.singleton_append, Text.join_cons_eq_flatMap, List.flatMap_singleton,
      List.append_nil, ← written, Nat.add_zero] at lines

/-- Two rules without anything else are read as an empty frontmatter block. -/
theorem split_toMarkdown_rules :
    (∀ node ∈ (ofNodes [.element "hr" [] [], .element "hr" [] []]).nodes.flatMap Node.inOrder,
        node.isHyphenFree = true) ∧
      (ofNodes [.element "hr" [] [], .element "hr" [] []]).toMarkdown false = "---\n\n---\n" ∧
      Frontmatter.split ((ofNodes [.element "hr" [] [], .element "hr" [] []]).toMarkdown false) =
        ⟨some "", ""⟩ := by
  decide

/-- A document without frontmatter and without hyphens is read as having none unless it opens with a rule. One that
does, and names no component with a line feed, is read as having some if and only if there is another rule at the
start of a line. -/
theorem split_toMarkdown {tree : Tree} (bare : tree.frontmatter = .null ∨ tree.frontmatter = .obj [])
    (plain : ∀ node ∈ tree.nodes.flatMap Node.inOrder, node.isHyphenFree = true) :
    (opensWithRule tree.nodes = false →
        Frontmatter.split (tree.toMarkdown false) = ⟨none, tree.toMarkdown false⟩) ∧
      ((∀ node ∈ tree.nodes.flatMap Node.inOrder, ∀ tag ∈ node.tag?, '\n' ∉ tag.toList) →
        (Frontmatter.split (tree.toMarkdown false) = ⟨none, tree.toMarkdown false⟩ ↔
          ¬ (opensWithRule tree.nodes = true ∧ 2 ≤ bareRulesBehind none tree.nodes))) := by
  have text := toList_toMarkdown bare
  have free : ∀ node ∈ tree.nodes, ∀ part ∈ node.inOrder, part.isHyphenFree = true := fun node member part inside =>
    plain part (List.mem_flatMap.2 ⟨node, member, inside⟩)
  have other : opensWithRule tree.nodes = false → Text.CalmStart (tree.toMarkdown false).toList := by
    rw [text]
    exact calmStart_bodyText fun node member =>
      ⟨free node member, fun _ _ _ _ => Text.calmStart_of_head (by decide) (by decide) _⟩
  refine ⟨fun closed => Frontmatter.split_of_calmStart (other closed), fun oneLine => ?_⟩
  have ruled : Text.Ruled [tree.bodyText] (bareRulesBehind none tree.nodes) := ruled_bodyText fun node member =>
    ⟨free node member, fun part inside tag same => Text.calm_of_line (by decide)
      (by simp [oneLine part (List.mem_flatMap.2 ⟨node, member, inside⟩) tag same])⟩
  rw [← text] at ruled
  have rules : Text.rulesIn (tree.toMarkdown false).toList = bareRulesBehind none tree.nodes := by
    simpa [Text.rulesIn] using ruled.count
  have opening : (Text.splitOn '\n' (tree.toMarkdown false).toList).head? = some Text.rule ↔
      opensWithRule tree.nodes = true := by
    refine ⟨fun first => ?_, fun opens => text ▸ head?_bodyText_of_rule opens⟩
    by_contra closed
    exact Text.not_unruled_rule (other (by simpa using closed) Text.rule first)
  rw [Frontmatter.split_eq_none_iff (ruled.only _ List.mem_cons_self), rules, opening]

/-- A rule in front of a list that holds another one. -/
theorem split_toMarkdown_list :
    let page := ofNodes [.element "style" [] [], .element "hr" [] [],
      .element "ul" [] [.element "li" [] [.text "a"], .element "li" [] [.element "hr" [] []]]]
    (opensWithRule page.nodes = true ∧ bareRulesBehind none page.nodes = 1) ∧
      Frontmatter.split (page.toMarkdown false) = ⟨none, page.toMarkdown false⟩ := by
  refine ⟨by decide, ?_⟩
  exact ((split_toMarkdown (Or.inr rfl) (by decide)).2 (by decide)).2 (by decide)

end Tree

end ComponentMarkdown
