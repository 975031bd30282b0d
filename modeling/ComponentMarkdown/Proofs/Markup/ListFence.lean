import ComponentMarkdown.Proofs.Markup.AttributeBlock
import ComponentMarkdown.Proofs.Markup.FenceTurn
import ComponentMarkdown.Proofs.Markup.Rendering

namespace ComponentMarkdown

namespace Writer

/-- A line under an indentation. Empty lines stay empty. -/
def indented (width : Nat) (line : List Char) : List Char :=
  if line.isEmpty then [] else List.replicate width ' ' ++ line

theorem indented_of_ne_nil (width : Nat) {line : List Char} (some : line ≠ []) :
    indented width line = List.replicate width ' ' ++ line := by
  rw [indented, if_neg (by simpa using some)]

/-- A mark of an item: it starts with no blank and no character of a fence, and is at least two characters wide. -/
structure IsMark (mark : List Char) : Prop where
  first : ∃ c rest, mark = c :: rest ∧ c ≠ ' ' ∧ c ≠ '\x60' ∧ c ≠ '~'
  oneLine : '\n' ∉ mark
  wide : 2 ≤ mark.length

theorem isMark_itemMark (ordered : Bool) (start index : Nat) : IsMark (itemMark ordered start index) := by
  cases ordered with
  | false =>
    have dash : itemMark false start index = ['-', ' '] := rfl
    rw [dash]
    exact ⟨⟨'-', [' '], rfl, by decide⟩, by decide, by decide⟩
  | true =>
    obtain ⟨some, digits, _⟩ := AttributeBlock.repr_nat ((start + index) % numberLimit)
    rw [itemMark, if_pos rfl]
    generalize ((start + index) % numberLimit).repr.toList = number at some digits
    obtain ⟨c, rest, rfl⟩ := List.exists_cons_of_ne_nil some
    refine ⟨⟨c, rest ++ ['.', ' '], rfl, ?_⟩, ?_, ?_⟩
    · have digit := digits c List.mem_cons_self
      refine ⟨?_, ?_, ?_⟩ <;> (rintro rfl; exact absurd digit (by decide))
    · intro member
      rcases List.mem_append.1 member with inside | behind
      · exact absurd (digits _ inside) (by decide)
      · exact absurd behind (by decide)
    · simp

theorem splitOn_itemText {mark content first : List Char} {rest : List (List Char)} (oneLine : '\n' ∉ mark)
    (parts : Text.splitOn '\n' content = first :: rest) :
    Text.splitOn '\n' (itemText mark content) = (mark ++ first) :: rest.map (indented mark.length) := by
  have none : ∀ line ∈ first :: rest, '\n' ∉ line := fun line member => Text.not_mem_of_mem_splitOn (parts ▸ member)
  obtain ⟨here, below⟩ := List.forall_mem_cons.1 none
  have whole : itemText mark content = Text.join ['\n'] ((mark ++ first) :: rest.map (indented mark.length)) := by
    rw [itemText, indentContinuation, parts, Text.join_cons_eq_flatMap,
      List.append_assoc, ← Text.join_cons_eq_flatMap]
    rfl
  rw [whole]
  refine Text.splitOn_join (by simp) (List.forall_mem_cons.2 ⟨by simp [oneLine, here], ?_⟩)
  refine List.forall_mem_map.2 fun line listed => ?_
  rw [indented]
  split
  · simp
  · simp [below line listed]

end Writer

namespace Token

open Writer (indented IsMark)

section Indented

variable {width : Nat} {line : List Char}

theorem idle_mark {mark : List Char} (isMark : IsMark mark) (rest : List Char) : Idle (mark ++ rest) := by
  obtain ⟨c, more, rfl, blank, fence⟩ := isMark.first
  refine idle_of_head fun d first => ?_
  rw [List.cons_append, List.dropWhile_cons_of_neg (by simpa using blank), List.head?_cons] at first
  rwa [← Option.some.inj first]

theorem idle_indented_of_isQuiet (quiet : isQuiet line = true) (width : Nat) : Idle (indented width line) := by
  refine idle_of_isQuiet ?_
  rw [indented]
  split
  · rfl
  · exact isQuiet_append (isQuiet_iff.2 (by simp)) quiet

theorem idle_indented_mark {mark : List Char} (isMark : IsMark mark) (rest : List Char) (width : Nat) :
    Idle (indented width (mark ++ rest)) := by
  obtain ⟨c, more, rfl, blank, fence⟩ := isMark.first
  rw [Writer.indented_of_ne_nil width (by simp)]
  refine idle_of_head fun d first => ?_
  have stop : ((c :: more) ++ rest).head? ≠ some ' ' := by simpa using blank
  rw [(takeWhile_repeated ' ' width stop).2, List.cons_append, List.head?_cons] at first
  rwa [← Option.some.inj first]

/-- Nothing is seen under four blanks, which are there already if both the mark and a mark inside make room for
two. -/
theorem idle_indented_of_wide (wide : 4 ≤ width) (line : List Char) : Idle (indented width line) := by
  rw [indented]
  split
  · exact idle_nil
  · refine idle_of_deep ?_
    have blanks : List.replicate width ' ' = List.replicate 4 ' ' ++ List.replicate (width - 4) ' ' := by
      rw [List.replicate_append_replicate]
      exact congrArg (List.replicate · ' ') (by omega)
    rw [blanks, List.append_assoc]
    exact List.prefix_append _ _

theorem idle_indented_indented (narrow : 2 ≤ width) {inner : Nat} (narrow' : 2 ≤ inner) (line : List Char) :
    Idle (indented width (indented inner line)) := by
  by_cases empty : line = []
  · subst empty
    exact idle_nil
  · have deep := idle_indented_of_wide (by omega : 4 ≤ width + inner) line
    rw [Writer.indented_of_ne_nil _ empty] at deep ⊢
    rwa [Writer.indented_of_ne_nil _ (by simp [empty]), ← List.append_assoc, List.replicate_append_replicate]

end Indented

/-- The lines of a list inside an item change nothing, whatever the list holds: they start with a mark, or with a
blank for each character of one. -/
theorem idle_list {width : Nat} (wide : 2 ≤ width) (ordered : Bool) (start : Nat) (items : List Rendered)
    (depth : Nat) : ∀ line ∈ Text.splitOn '\n' (Writer.list ordered start items depth),
    Idle (indented width line) := by
  rw [Writer.list_eq]
  refine forall_mem_splitOn_join (Writer.separatorOf_cases items) idle_nil fun part member => ?_
  obtain ⟨entry, _, rfl⟩ := List.mem_map.1 member
  have isMark := Writer.isMark_itemMark ordered start entry.2
  obtain ⟨first, rest, parts⟩ := List.exists_cons_of_ne_nil
    (Text.splitOn_ne_nil '\n' (Writer.itemContent (Writer.separatorOf items) depth entry.1))
  rw [Writer.splitOn_itemText isMark.oneLine parts]
  refine List.forall_mem_cons.2 ⟨idle_indented_mark isMark first width, List.forall_mem_map.2 fun line _ => ?_⟩
  exact idle_indented_indented wide isMark.wide line

end Token

namespace CodeFence

theorem longestRunFrom_of_not_mem {code : List Char} (none : backtick ∉ code) (current : Nat) :
    longestRunFrom current code = current := by
  induction code generalizing current with
  | nil => rfl
  | cons c rest ih =>
    rw [List.mem_cons, not_or] at none
    rw [longestRunFrom, if_neg (Ne.symm none.1), ih none.2]
    omega

theorem fence_of_not_mem {code : List Char} (none : backtick ∉ code) : fence code = List.replicate 3 '\x60' := by
  rw [fence, fenceLength, longestRunFrom_of_not_mem none]
  rfl

/-- What stands behind the opening fence. -/
def Info.firstLine (info : Info) : List Char := (Text.splitOn '\n' info.write).headD []

end CodeFence

namespace Node

/-- Whether a node may stand in an item of a list: a list, or text, a paragraph of texts or code without the
characters of fences. -/
def isItemContent : Node → Bool
  | .text content => Token.isQuiet content.toList
  | .element tag attrs children =>
    if tag = "pre" then Token.isQuiet (Writer.codeOf attrs children) && Token.isQuiet (Writer.infoOf attrs).write
    else if tag = "p" then children.all fun child => child.isText && Token.isQuiet child.textContent.toList
    else tag = "ul" || tag = "ol"
  | .comment _ => false

/-- Whether the opening fence of a node would close a fence that is open. -/
def opensBlank : Node → Bool
  | .element tag attrs _ => tag ≠ "pre" || Text.allBlank (Writer.infoOf attrs).firstLine
  | _ => true

/-- Whether a node is an item that holds text, paragraphs, lists and code without the characters of fences. -/
def isPlainItem : Node → Bool
  | .element tag _ children => tag = "li" && children.all isItemContent
  | _ => false

/-- Whether a node is a list of such items. -/
def isPlainList : Node → Bool
  | .element tag _ items => (tag = "ul" || tag = "ol") && items.all isPlainItem
  | _ => false

end Node

namespace Token

open Writer (indented IsMark)

open Node (render)

section Code

variable {attrs : Attrs} {children : List Node}

/-- Code without the characters of fences separates its fences. -/
theorem splitOn_code (code : isQuiet (Writer.codeOf attrs children) = true)
    (info : isQuiet (Writer.infoOf attrs).write = true) :
    ∃ inner, (∀ line ∈ inner, isQuiet line = true) ∧ Text.splitOn '\n' (Writer.code attrs (Node.textOf children)) =
      (List.replicate 3 '\x60' ++ (Writer.infoOf attrs).firstLine) :: (inner ++ [List.replicate 3 '\x60']) := by
  obtain ⟨first, more, parts⟩ := List.exists_cons_of_ne_nil (Text.splitOn_ne_nil '\n' (Writer.infoOf attrs).write)
  have fence := CodeFence.fence_of_not_mem (isQuiet_iff.1 code).1
  refine ⟨more ++ CodeFence.codeLines (Writer.codeOf attrs children), List.forall_mem_append.2 ⟨?_, ?_⟩, ?_⟩
  · exact fun line member => isQuiet_of_mem_splitOn info (parts ▸ List.mem_cons_of_mem _ member)
  · exact fun line member => isQuiet_of_infix (CodeFence.infix_of_mem_codeLines member) code
  · rw [Writer.code_eq, CodeFence.splitOn_write parts, fence, CodeFence.Info.firstLine, parts]
    rfl

theorem isQuiet_firstLine {info : CodeFence.Info} (quiet : isQuiet info.write = true) :
    isQuiet info.firstLine = true := by
  obtain ⟨first, more, parts⟩ := List.exists_cons_of_ne_nil (Text.splitOn_ne_nil '\n' info.write)
  have member : first ∈ Text.splitOn '\n' info.write := parts ▸ List.mem_cons_self
  rw [CodeFence.Info.firstLine, parts]
  exact isQuiet_of_mem_splitOn quiet member

variable (code : isQuiet (Writer.codeOf attrs children) = true) (info : isQuiet (Writer.infoOf attrs).write = true)
  {width : Nat} (narrow : width ≤ 3)

theorem turns_indented_fence (narrow : width ≤ 3) {info : List Char} (quiet : isQuiet info = true) :
    Turns [indented width (List.replicate 3 '\x60' ++ info)] (fun isOpen => !(isOpen && Text.allBlank info)) := by
  rw [Writer.indented_of_ne_nil width (by simp)]
  exact turns_fence narrow quiet

theorem turns_closing (narrow : width ≤ 3) : Turns [indented width (List.replicate 3 '\x60')] (! ·) := by
  have closing := turns_indented_fence narrow (by decide : isQuiet [] = true)
  rw [List.append_nil] at closing
  exact closing.congr fun isOpen => by simp [Text.allBlank]

include code info narrow

/-- A code block of which both fences are seen leaves none open, unless one was open and its opening fence does not
close that one. -/
theorem turns_code : Turns ((Text.splitOn '\n' (Writer.code attrs (Node.textOf children))).map (indented width))
    (fun isOpen => isOpen && Text.allBlank (Writer.infoOf attrs).firstLine) := by
  obtain ⟨inner, quiet, lines⟩ := splitOn_code code info
  have opening := turns_indented_fence narrow (isQuiet_firstLine info)
  have middle := Turns.of_idle_map fun line listed => idle_indented_of_isQuiet (quiet line listed) width
  have whole := opening.append (middle.append (turns_closing narrow))
  rw [lines, List.map_cons, List.map_append, List.map_singleton]
  simpa using whole

end Code

theorem isQuiet_inlines {children : List Node}
    (texts : ∀ child ∈ children, (child.isText && isQuiet child.textContent.toList) = true) (afterBacktick : Bool) :
    isQuiet (Writer.inlines afterBacktick (children.map render)) = true := by
  induction children generalizing afterBacktick with
  | nil => rfl
  | cons child rest ih =>
    obtain ⟨here, below⟩ := List.forall_mem_cons.1 texts
    rw [Bool.and_eq_true] at here
    cases child with
    | element | comment => cases here.1
    | text content =>
      rw [Node.textContent] at here
      rw [List.map_cons, Writer.inlines, Node.render]
      exact isQuiet_append here.2 (ih below _)

section Gap

variable {gap : List (List Char)} (empty : ∀ line ∈ gap, line = []) (width : Nat)

include empty

theorem idle_gap : ∀ line ∈ gap.map (indented width), Idle line :=
  List.forall_mem_map.2 fun line listed => by
    rw [empty line listed]
    exact idle_nil

theorem turns_run {run : Option (List Char)} (quiet : ∀ text ∈ run, isQuiet text = true) :
    Turns ((gapped gap run.toList).map (indented width)) id := by
  cases run with
  | none => exact Turns.nil
  | some text =>
    have lines := Turns.of_idle_map fun line (listed : line ∈ Text.splitOn '\n' text) =>
      idle_indented_of_isQuiet (isQuiet_of_mem_splitOn (quiet text rfl) listed) width
    rw [Option.toList_some, gapped, List.flatMap_singleton, List.map_append]
    exact (Turns.idle_append_iff (idle_gap empty width)).2 lines

end Gap

section Content

variable {width : Nat} (wide : 2 ≤ width)

include wide

/-- What an element in an item makes of a fence, on lines that are indented. -/
theorem turns_block {tag : String} {attrs : Attrs} {children : List Node}
    (plain : (Node.element tag attrs children).isItemContent = true) (depth : Nat) :
    (Node.element tag attrs children).fixedPlacement? = some .block ∧
      ∃ block, (Node.element tag attrs children).render.rendering.block depth = some block ∧
        (tag ≠ "pre" → ∀ line ∈ Text.splitOn '\n' block, Idle (indented width line)) ∧
        (width ≤ 3 → Turns ((Text.splitOn '\n' block).map (indented width))
          (fun isOpen => isOpen && (Node.element tag attrs children).opensBlank)) := by
  have idle : ∀ block : List Char, tag ≠ "pre" → (∀ line ∈ Text.splitOn '\n' block, Idle (indented width line)) →
      Turns ((Text.splitOn '\n' block).map (indented width))
        (fun isOpen => isOpen && (Node.element tag attrs children).opensBlank) := by
    intro block other lines
    exact (Turns.of_idle_map lines).congr fun isOpen => by simp [Node.opensBlank, other]
  rw [Node.isItemContent] at plain
  by_cases pre : tag = "pre"
  · subst pre
    rw [if_pos rfl, Bool.and_eq_true] at plain
    refine ⟨rfl, Writer.code attrs (Node.textOf children), by rw [render]; rfl, fun other => absurd rfl other, ?_⟩
    intro narrow
    exact (turns_code plain.1 plain.2 narrow).congr fun isOpen => by simp [Node.opensBlank]
  rw [if_neg pre] at plain
  by_cases paragraph : tag = "p"
  · subst paragraph
    rw [if_pos rfl, List.all_eq_true] at plain
    have quiet := isQuiet_inlines plain false
    have lines : ∀ line ∈ Text.splitOn '\n' (Writer.inlines false (children.map render)),
      Idle (indented width line) :=
      fun line member => idle_indented_of_isQuiet (isQuiet_of_mem_splitOn quiet member) width
    exact ⟨rfl, Writer.inlines false (children.map render), by rw [render, Node.renderAll_eq_map]; rfl,
      fun _ => lines, fun _ => idle _ pre lines⟩
  · rw [if_neg paragraph, Bool.or_eq_true, decide_eq_true_eq, decide_eq_true_eq] at plain
    have lines := idle_list wide (tag = "ol") (Writer.startOf attrs) (children.map render) depth
    refine ⟨?_, _, Node.block_render_list plain attrs children depth, fun _ => lines, fun _ => idle _ pre lines⟩
    rcases plain with rfl | rfl
    · rfl
    · rfl

/-- What the parts of an item make of a fence, if each stands on lines of its own. -/
theorem turns_blockParts (narrow : width ≤ 3) {gap : List (List Char)} (empty : ∀ line ∈ gap, line = [])
    {children : List Node} (plain : ∀ child ∈ children, child.isItemContent = true) (depth : Nat)
    (before : Option Node) {line : Option (List Char)} (quiet : ∀ text ∈ line, isQuiet text = true) :
    Turns ((gapped gap (Writer.blockParts depth line before (children.map render))).map (indented width))
      (fun isOpen => isOpen && children.all Node.opensBlank) := by
  -- Text is collected in a run of which the lines change nothing, so a block behind it starts from the fence in
  -- front.
  induction children generalizing before line with
  | nil =>
    rw [List.map_nil, Writer.blockParts]
    exact (turns_run empty width quiet).congr fun isOpen => by simp
  | cons child rest ih =>
    obtain ⟨here, below⟩ := List.forall_mem_cons.1 plain
    cases child with
    | comment => cases here
    | text content =>
      have joined : ∀ text ∈ some (line.getD [] ++ content.toList), isQuiet text = true := by
        rintro text same
        rw [← Option.some.inj same]
        refine isQuiet_append ?_ here
        cases line with
        | none => rfl
        | some start => exact quiet start rfl
      rw [List.map_cons, Writer.blockParts, Node.render_node]
      have later := ih below (some (.text content)) joined
      simpa [Node.isInlineBetween, Node.fixedPlacement?, Node.render, Node.opensBlank] using later
    | element tag attrs children =>
      obtain ⟨place, block, written, _, turns⟩ := turns_block wide here depth
      have own := (Turns.idle_append_iff (idle_gap empty width)).2 (turns narrow)
      have later := ih below (some (.element tag attrs children)) (by simp : ∀ text ∈ none, isQuiet text = true)
      have whole := (turns_run empty width quiet).append (own.append later)
      rw [List.map_cons, Writer.blockParts, Node.render_node, Node.isInlineBetween_of_block place, written]
      simpa [gapped, Bool.and_assoc] using whole

end Content

/-- Text at the start of an item goes on in a line of its own. -/
theorem blockParts_run {children : List Node} (plain : ∀ child ∈ children, child.isItemContent = true) (depth : Nat)
    (before : Option Node) {start : List Char} (quiet : isQuiet start = true) :
    ∃ run others, Writer.blockParts depth (some start) before (children.map render) = run :: others ∧
      isQuiet run = true := by
  induction children generalizing before start with
  | nil => exact ⟨start, [], rfl, quiet⟩
  | cons child rest ih =>
    obtain ⟨here, below⟩ := List.forall_mem_cons.1 plain
    rw [List.map_cons, Writer.blockParts, Node.render_node]
    split
    · rename_i inline
      cases child with
      | comment => cases here
      | text content =>
        rw [render]
        exact ih below _ (isQuiet_append quiet here)
      | element tag attrs children =>
        obtain ⟨place, _⟩ := turns_block (Nat.le_refl 2) here depth
        rw [Node.isInlineBetween_of_block place] at inline
        cases inline
    · exact ⟨start, _, rfl, quiet⟩

section Item

variable {mark : List Char} (isMark : IsMark mark) {separator : List Char}
  (separates : Separates separator)

include isMark separates

/-- The mark in front of the first line does not matter if this line changes nothing. -/
theorem turns_itemText {block : List Char} {others : List (List Char)} {turn : Bool → Bool}
    (idle : ∀ line ∈ Text.splitOn '\n' block, Idle (indented mark.length line))
    (apart : ∀ gap : List (List Char), (∀ line ∈ gap, line = []) →
      Turns ((gapped gap (block :: others)).map (indented mark.length)) turn) :
    Turns (Text.splitOn '\n' (Writer.itemText mark (Text.join separator (block :: others)))) turn := by
  obtain ⟨gap, empty, behind⟩ := exists_gap separates
  obtain ⟨first, more, parts⟩ := List.exists_cons_of_ne_nil (Text.splitOn_ne_nil '\n' block)
  have whole := apart gap empty
  -- The gap and the first line are the only ones that stand under the mark in another way than under its
  -- indentation.
  have front : ∀ line ∈ (gap ++ [first]).map (indented mark.length), Idle line := by
    rw [List.map_append, List.map_singleton]
    refine List.forall_mem_append.2 ⟨idle_gap empty _, List.forall_mem_singleton.2 ?_⟩
    exact idle first (parts ▸ List.mem_cons_self)
  have split : gapped gap (block :: others) = (gap ++ [first]) ++ (more ++ gapped gap others) := by
    rw [gapped, List.flatMap_cons, parts]
    simp [gapped]
  rw [split, List.map_append, Turns.idle_append_iff front] at whole
  rw [Writer.splitOn_itemText isMark.oneLine (by rw [behind, parts, List.cons_append])]
  exact (idle_mark isMark first).append whole

/-- The opening fence of code at the start of an item is not seen, so its closing fence is taken for another. -/
theorem turns_itemText_code {attrs : Attrs} {children : List Node}
    (code : isQuiet (Writer.codeOf attrs children) = true) (info : isQuiet (Writer.infoOf attrs).write = true)
    (narrow : mark.length ≤ 3) {others : List (List Char)} {turn : Bool → Bool}
    (later : ∀ gap : List (List Char), (∀ line ∈ gap, line = []) →
      Turns ((gapped gap others).map (indented mark.length)) turn) :
    Turns (Text.splitOn '\n' (Writer.itemText mark
      (Text.join separator (Writer.code attrs (Node.textOf children) :: others))))
        (fun isOpen => turn (!isOpen)) := by
  obtain ⟨gap, empty, behind⟩ := exists_gap separates
  obtain ⟨inner, quiet, lines⟩ := splitOn_code code info
  have middle := Turns.of_idle_map fun line listed => idle_indented_of_isQuiet (quiet line listed) mark.length
  have closing := (turns_closing narrow).append (later gap empty)
  rw [Writer.splitOn_itemText isMark.oneLine (by rw [behind, lines, List.cons_append]), List.map_append,
    List.map_append, List.map_singleton, List.append_assoc]
  exact (idle_mark isMark _).append (middle.append closing)

end Item

/-- Whether a fence is open behind an item with a mark of some width, given whether one is open in front of it. -/
def openBehindItem (width : Nat) (isOpen : Bool) : Node → Bool
  | .element _ _ (first :: rest) =>
    if width ≤ 3 then (if first.tag? = some "pre" then !isOpen else isOpen) && rest.all Node.opensBlank else isOpen
  | _ => isOpen

/-- Whether a fence is open behind a list, given whether one is open in front of it. -/
def openBehindList (isOpen : Bool) : Node → Bool
  | .element tag attrs items => items.zipIdx.foldl (fun isOpen entry =>
      openBehindItem (Writer.itemMark (tag = "ol") (Writer.startOf attrs) entry.2).length isOpen entry.1) isOpen
  | _ => isOpen

section Item

variable {mark : List Char} (isMark : IsMark mark) {separator : List Char}
  (separates : Separates separator)

include isMark in
/-- Under a wide mark no fence is seen. -/
theorem turns_item_of_wide (wide : 4 ≤ mark.length) (content : List Char) :
    Turns (Text.splitOn '\n' (Writer.itemText mark content)) id := by
  obtain ⟨first, rest, parts⟩ := List.exists_cons_of_ne_nil (Text.splitOn_ne_nil '\n' content)
  rw [Writer.splitOn_itemText isMark.oneLine parts]
  exact (idle_mark isMark first).append (Turns.of_idle_map fun line _ => idle_indented_of_wide wide line)

include isMark separates

section Narrow

variable (narrow : mark.length ≤ 3) (depth : Nat) {rest : List Node}

include narrow

theorem turns_item_text {content : String}
    (plain : ∀ child ∈ Node.text content :: rest, child.isItemContent = true) :
    Turns (Text.splitOn '\n' (Writer.itemText mark
        (Text.join separator (Writer.blockParts depth none none ((Node.text content :: rest).map render)))))
      (fun isOpen => isOpen && rest.all Node.opensBlank) := by
  obtain ⟨here, below⟩ := List.forall_mem_cons.1 plain
  have apart := fun gap (empty : ∀ line ∈ gap, line = []) =>
    turns_blockParts isMark.wide narrow empty plain depth none (by simp : ∀ text ∈ none, isQuiet text = true)
  obtain ⟨run, others, parts, quiet⟩ := blockParts_run below depth (some (.text content)) here
  have start : Writer.blockParts depth none none ((Node.text content :: rest).map render) = run :: others := by
    rw [← parts, List.map_cons, Writer.blockParts, render]
    rfl
  rw [start] at apart ⊢
  refine (turns_itemText isMark separates (fun line member => ?_) apart).congr fun isOpen => ?_
  · exact idle_indented_of_isQuiet (isQuiet_of_mem_splitOn quiet member) _
  · simp [Node.opensBlank]

theorem turns_item_element {tag : String} {attrs : Attrs} {children : List Node}
    (plain : ∀ child ∈ Node.element tag attrs children :: rest, child.isItemContent = true) :
    Turns (Text.splitOn '\n' (Writer.itemText mark (Text.join separator
        (Writer.blockParts depth none none ((Node.element tag attrs children :: rest).map render)))))
      (fun isOpen => (if tag = "pre" then !isOpen else isOpen) && rest.all Node.opensBlank) := by
  obtain ⟨here, below⟩ := List.forall_mem_cons.1 plain
  have noRun : ∀ text ∈ none, isQuiet text = true := by simp
  obtain ⟨place, block, written, idle, _⟩ := turns_block isMark.wide here depth
  have start : Writer.blockParts depth none none ((Node.element tag attrs children :: rest).map render) =
      block :: Writer.blockParts depth none (some (.element tag attrs children)) (rest.map render) := by
    rw [List.map_cons, Writer.blockParts, Node.render_node, Node.isInlineBetween_of_block place, written]
    rfl
  by_cases pre : tag = "pre"
  · subst pre
    rw [Node.isItemContent, if_pos rfl, Bool.and_eq_true] at here
    have code : block = Writer.code attrs (Node.textOf children) := by
      rw [render] at written
      exact (Option.some.inj written).symm
    have later := fun gap (empty : ∀ line ∈ gap, line = []) =>
      turns_blockParts isMark.wide narrow empty below depth (some (.element "pre" attrs children)) noRun
    rw [start, code]
    exact (turns_itemText_code isMark separates here.1 here.2 narrow later).congr fun isOpen => by simp
  · have apart := fun gap (empty : ∀ line ∈ gap, line = []) =>
      turns_blockParts isMark.wide narrow empty plain depth none noRun
    rw [start] at apart ⊢
    refine (turns_itemText isMark separates (idle pre) apart).congr fun isOpen => ?_
    simp [Node.opensBlank, pre]

end Narrow

theorem turns_item {item : Node} (plain : item.isPlainItem = true) (depth : Nat) :
    Turns (Text.splitOn '\n' (Writer.itemText mark (Writer.itemContent separator depth item.render)))
      (fun isOpen => openBehindItem mark.length isOpen item) := by
  cases item with
  | text | comment => cases plain
  | element tag attrs children =>
    rw [Node.isPlainItem, Bool.and_eq_true, decide_eq_true_eq, List.all_eq_true] at plain
    obtain ⟨rfl, plain⟩ := plain
    have content : Writer.itemContent separator depth (Node.element "li" attrs children).render =
        Text.join separator (Writer.blockParts depth none none (children.map render)) := by
      rw [render, Node.renderAll_eq_map]
      rfl
    rw [content]
    -- A fence is seen under three blanks, the width of the mark of an item with one digit, and not under four.
    by_cases narrow : mark.length ≤ 3
    · cases children with
      | nil =>
        have empty : Text.splitOn '\n' [] = [[]] := rfl
        rw [List.map_nil, Writer.blockParts, Option.toList_none, Text.join,
          Writer.splitOn_itemText isMark.oneLine empty]
        exact idle_mark isMark []
      | cons child rest =>
        cases child with
        | comment => cases (List.forall_mem_cons.1 plain).1
        | text content =>
          refine (turns_item_text isMark separates narrow depth plain).congr fun isOpen => ?_
          simp [openBehindItem, narrow, Node.tag?]
        | element tag attrs children =>
          refine (turns_item_element isMark separates narrow depth plain).congr fun isOpen => ?_
          simp [openBehindItem, narrow, Node.tag?]
    · refine (turns_item_of_wide isMark (by omega) _).congr fun isOpen => ?_
      cases children <;> simp [openBehindItem, narrow]

end Item

/-- A list as it is written on lines of its own. -/
def listText (list : Node) : List Char := (list.render.rendering.block 0).getD []

theorem turns_list {list : Node} (plain : list.isPlainList = true) :
    list.fixedPlacement? = some .block ∧ list.render.rendering.block 0 = some (listText list) ∧
      Turns (Text.splitOn '\n' (listText list)) (fun isOpen => openBehindList isOpen list) := by
  cases list with
  | text | comment => cases plain
  | element tag attrs items =>
    rw [Node.isPlainList, Bool.and_eq_true, Bool.or_eq_true, decide_eq_true_eq, decide_eq_true_eq,
      List.all_eq_true] at plain
    obtain ⟨isList, plain⟩ := plain
    have written := Node.block_render_list isList attrs items 0
    refine ⟨?_, by rw [listText, written]; rfl, ?_⟩
    · rcases isList with rfl | rfl
      · rfl
      · rfl
    · rw [listText, written, Option.getD_some, Writer.list_eq, List.zipIdx_map, List.map_map]
      refine Turns.join (Writer.separatorOf_cases _) fun entry member => ?_
      have listed := plain entry.1 (List.fst_mem_of_mem_zipIdx member)
      exact turns_item (Writer.isMark_itemMark _ _ _) (Writer.separatorOf_cases _) listed 0

theorem blockParts_lists {lists : List Node} (plain : ∀ list ∈ lists, list.isPlainList = true)
    (before : Option Node) : Writer.blockParts 0 none before (lists.map render) = lists.map listText := by
  induction lists generalizing before with
  | nil => rfl
  | cons list rest ih =>
    obtain ⟨here, below⟩ := List.forall_mem_cons.1 plain
    obtain ⟨place, written, _⟩ := turns_list here
    rw [List.map_cons, Writer.blockParts, Node.render_node, Node.isInlineBetween_of_block place, written, ih below,
      List.map_cons]
    rfl

/-- The lines that open and close a component. -/
def componentLines (tag : String) : List (List Char) := [':' :: ':' :: tag.toList, [':', ':']]

theorem block_component {tag : String} (component : Placement.ofTag? tag = none) :
    (Node.element tag [] []).render.rendering.block 0 = some (Text.join ['\n'] (componentLines tag)) := by
  rw [Node.block_render_of_place component]
  simp [Writer.component, Writer.segments, AttributeBlock.write, AttributeBlock.parts, componentLines, Text.join]

section Component

variable {tag : String} (named : isName tag.toList = true)

include named

theorem ofLines_component (isOpen : Bool) (number : Nat) : ofLines (openIf isOpen) number (componentLines tag) =
    [⟨if isOpen then .markdown else .componentOpen 2 tag none, "::" ++ tag, number⟩,
      ⟨if isOpen then .markdown else .componentClose 2, "::", number + 1⟩] := by
  have colons : String.ofList (':' :: ':' :: tag.toList) = "::" ++ tag := by
    apply String.ext
    simp
  rw [componentLines]
  cases isOpen with
  | false =>
    have opening := classify_open 0 named (Or.inl rfl)
    have closing := classify_close 0
    rw [List.append_nil] at opening
    rw [openIf, if_neg (by decide), ofLines_cons (opensFence?_cons _ (by decide) (by decide) (by decide)),
      ofLines_cons (opensFence?_cons _ (by decide) (by decide) (by decide)), ofLines, colons]
    simp only [List.replicate, List.cons_append, List.nil_append] at opening closing
    rw [opening, closing, String.ofList_toList]
    rfl
  | true =>
    have inside : ∀ line ∈ [':' :: ':' :: tag.toList, [':', ':']], closesFence ⟨'\x60', 3⟩ line = false := by
      refine List.forall_mem_cons.2 ⟨?_, List.forall_mem_singleton.2 ?_⟩
      · exact closesFence_cons _ (by decide) (by decide) (by decide)
      · exact closesFence_cons _ (by decide) (by decide) (by decide)
    rw [openIf, if_pos rfl, ofLines_inside inside, markdownFrom, markdownFrom, markdownFrom, colons]
    rfl

theorem not_mem_name {c : Char} (other : isNameChar c = false) : c ∉ tag.toList := by
  intro member
  rw [isName_chars named c member] at other
  cases other

theorem dropReturn_component : (componentLines tag).map Text.dropReturn = componentLines tag := by
  have outside : '\r' ∉ ':' :: ':' ::
    tag.toList := by simp [not_mem_name named (by decide : isNameChar '\r' = false)]
  have kept := Text.dropReturn_of_ne fun last => outside (List.mem_of_getLast? last)
  rw [componentLines, List.map_cons, kept]
  rfl

/-- The lines of lists and of a component behind them. -/
theorem splitOn_component {lists : List Node} (plain : ∀ list ∈ lists, list.isPlainList = true) :
    ∃ front, Text.splitOn '\n' (Text.join Writer.blankLine
        (lists.map listText ++ [Text.join ['\n'] (componentLines tag)])) = front ++ componentLines tag ∧
      Turns front (lists.foldl openBehindList ·) := by
  have separates : Separates Writer.blankLine := Or.inr rfl
  obtain ⟨gap, empty, behind⟩ := exists_gap separates
  have component : Text.splitOn '\n' (Text.join ['\n'] (componentLines tag)) = componentLines tag := by
    refine Text.splitOn_join (by simp [componentLines]) (List.forall_mem_cons.2 ⟨?_, by simp⟩)
    simp [not_mem_name named (by decide : isNameChar '\n' = false)]
  cases lists with
  | nil => exact ⟨[], by rw [List.map_nil, List.nil_append, Text.join, component, List.nil_append], Turns.nil⟩
  | cons list rest =>
    have idle : Turns gap id := Turns.of_idle fun line member => (empty line member).symm ▸ idle_nil
    have turns := Turns.join separates fun item (member : item ∈ list :: rest) =>
      (turns_list (plain item member)).2.2
    refine ⟨_, ?_, turns.append idle⟩
    rw [List.map_cons, List.cons_append, behind, behind, gapped, List.flatMap_append,
      List.flatMap_singleton, component]
    simp only [gapped, List.append_assoc]

end Component

theorem bodyText_component {lists : List Node} (plain : ∀ list ∈ lists, list.isPlainList = true) {tag : String}
    (component : Placement.ofTag? tag = none) {tree : Tree} (nodes : tree.nodes = lists ++ [.element tag [] []]) :
    tree.bodyText =
      Text.join Writer.blankLine (lists.map listText ++ [Text.join ['\n'] (componentLines tag)]) ++ ['\n'] := by
  have place : (Node.element tag [] []).fixedPlacement? = none := component
  have block : Node.isInlineBetween (lists.getLast?.or none) (.element tag [] []) none = false := by
    rw [Option.or_none, Node.isInlineBetween_eq, place]
    rcases List.eq_nil_or_concat lists with rfl | ⟨more, list, rfl⟩
    · rfl
    · have last := (turns_list (plain list (by simp))).1
      rw [List.concat_eq_append, List.getLast?_concat, Node.neighbourPlace, Option.bind_some, last]
      rfl
  have parts : Writer.blockParts 0 none none (tree.nodes.map render) =
      lists.map listText ++ [Text.join ['\n'] (componentLines tag)] := by
    rw [nodes, Writer.blockParts_append (by simp [place]) lists none block, blockParts_lists plain,
      block_component component, List.map_nil, Writer.blockParts, Option.toList_none, Option.toList_some,
      List.append_nil]
  have written : Text.join Writer.blankLine (lists.map listText ++ [Text.join ['\n'] (componentLines tag)]) ≠ [] :=
    Text.join_ne_nil_of_mem (List.mem_append_right _ List.mem_cons_self) (by simp [componentLines, Text.join])
  rw [Tree.bodyText, Node.renderAll_eq_map, Writer.blocks, parts]
  simp only [List.isEmpty_iff, written, if_false]

/-- Behind lists a component is seen if no fence is taken for open there, and else its lines are read as code. -/
theorem tokenize_lists {lists : List Node} (plain : ∀ list ∈ lists, list.isPlainList = true) {tag : String}
    (named : isName tag.toList = true) (component : Placement.ofTag? tag = none) {tree : Tree} (skip : Bool)
    (bare : skip = true ∨ Writer.frontmatter tree.frontmatter = [])
    (nodes : tree.nodes = lists ++ [.element tag [] []]) :
    ∃ front, tokenize (tree.toMarkdown skip) = front ++
      [⟨if lists.foldl openBehindList false then .markdown else .componentOpen 2 tag none, "::" ++ tag,
          front.length + 1⟩,
        ⟨if lists.foldl openBehindList false then .markdown else .componentClose 2, "::", front.length + 2⟩] := by
  obtain ⟨front, lines, turns⟩ := splitOn_component named plain
  have text : (tree.toMarkdown skip).toList = tree.bodyText := by
    rw [Tree.toMarkdown, String.toList_ofList]
    rcases bare with rfl | none
    · rfl
    · rw [none, ite_self, List.nil_append]
  have closed := turns false
  rw [openIf, if_neg (by decide)] at closed
  refine ⟨ofLines none 1 (front.map Text.dropReturn), ?_⟩
  rw [tokenize, text, bodyText_component plain component nodes, Text.lines_concat, lines, List.map_append,
    dropReturn_component named, ofLines_append, closed, length_ofLines, List.length_map, ofLines_component named,
    Nat.add_comm 1]

/-- The fence that the first list leaves open is not seen by the second, whose mark is too wide, and closed by the
opening fence of the third, which names a language. -/
theorem tokenize_lists_closed :
    let lists : List Node :=
      [.element "ul" [] [.element "li" [] [.element "pre" [] [.text "x"]]],
        .element "ol" [("start", .num (.int 10))] [.element "li" [] [.element "pre" [] [.text "y"]]],
        .element "ul" [] [.element "li" [] [.text "z", .element "pre" [("language", .str "js")] [.text "z"]]]]
    ∃ front, tokenize ((Tree.ofNodes (lists ++ [.element "card" [] []])).toMarkdown false) =
      front ++ [⟨.componentOpen 2 "card" none, "::card", front.length + 1⟩,
        ⟨.componentClose 2, "::", front.length + 2⟩] := by
  intro lists
  exact @tokenize_lists lists (by decide) "card" (by decide) (by decide) _ false (Or.inr rfl) rfl

/-- Code at the start of an item: the fence that closes it is taken for one that opens, and the component behind the
list for code. -/
theorem tokenize_lists_code : tokenize ((Tree.ofNodes
      [.element "ul" [] [.element "li" [] [.element "pre" [] [.text "x"]]], .element "card" [] []]
      ).toMarkdown false) =
    [⟨.markdown, "- \x60\x60\x60", 1⟩, ⟨.markdown, "  x", 2⟩, ⟨.markdown, "  \x60\x60\x60", 3⟩, ⟨.markdown, "", 4⟩,
      ⟨.markdown, "::card", 5⟩, ⟨.markdown, "::", 6⟩] := by
  decide

end Token

end ComponentMarkdown
