import ComponentMarkdown.Markup.Frontmatter
import ComponentMarkdown.Proofs.JsonLine
import ComponentMarkdown.Proofs.Markup.ListFence
import ComponentMarkdown.Proofs.Markup.Text
import ComponentMarkdown.Proofs.Markup.Tree

namespace ComponentMarkdown

namespace Text

/-- The line of a rule, which is also the mark of a frontmatter block. -/
def rule : List Char := ['-', '-', '-']

/-- A line that does not start with three dashes, and would not if more stood behind it. -/
def Unruled (line : List Char) : Prop := line = [] ∨ ∃ c ∈ line.take 3, c ≠ '-'

/-- A text of which no line starts with three dashes, and would not if more stood behind it. -/
def Calm (s : List Char) : Prop := ∀ line ∈ splitOn '\n' s, Unruled line

/-- A text of which the first line does not start with three dashes, and would not if more stood behind it. -/
def CalmStart (s : List Char) : Prop := ∀ line ∈ (splitOn '\n' s).head?, Unruled line

section Line

variable {line more : List Char}

theorem Unruled.nil : Unruled [] := Or.inl rfl

theorem unruled_of_head {c : Char} (other : c ≠ '-') (rest : List Char) : Unruled (c :: rest) :=
  Or.inr ⟨c, List.mem_cons_self, other⟩

theorem Unruled.append (first : Unruled line) (second : Unruled more) : Unruled (line ++ more) := by
  rcases first with rfl | ⟨c, member, other⟩
  · exact second
  · refine Or.inr ⟨c, ?_, other⟩
    rw [List.take_append]
    exact List.mem_append_left _ member

theorem Unruled.append_of_ne_nil (first : Unruled line) (some : line ≠ []) (more : List Char) :
    Unruled (line ++ more) := by
  obtain ⟨c, member, other⟩ := first.resolve_left some
  refine Or.inr ⟨c, ?_, other⟩
  rw [List.take_append]
  exact List.mem_append_left _ member

theorem unruled_of_not_mem (plain : '-' ∉ line) : Unruled line := by
  cases line with
  | nil => exact .nil
  | cons c rest => exact unruled_of_head (fun same => plain (same ▸ List.mem_cons_self)) rest

theorem not_unruled_rule_append (rest : List Char) : ¬ Unruled (rule ++ rest) := by
  rintro (empty | ⟨c, member, other⟩)
  · cases empty
  · have first : (rule ++ rest).take 3 = rule := rfl
    rw [first] at member
    have dashes : c ∈ List.replicate 3 '-' := member
    exact other (List.eq_of_mem_replicate dashes)

end Line

section Append

/-- The line in which one text ends and another starts belongs to both. -/
theorem splitOn_append_cases (separator : Char) (s t : List Char) : ∃ front last first rest,
    splitOn separator s = front ++ [last] ∧ splitOn separator t = first :: rest ∧
      splitOn separator (s ++ t) = front ++ (last ++ first) :: rest := by
  obtain ⟨first, rest, behind⟩ := List.exists_cons_of_ne_nil (splitOn_ne_nil separator t)
  refine ⟨(splitOn separator s).dropLast, (splitOn separator s).getLast (splitOn_ne_nil separator s), first, rest,
    (List.dropLast_append_getLast _).symm, behind, ?_⟩
  induction s with
  | nil => exact behind
  | cons c more ih =>
    obtain ⟨part, parts, same⟩ := List.exists_cons_of_ne_nil (splitOn_ne_nil separator more)
    simp only [same] at ih
    simp only [List.cons_append, splitOn, same, ih]
    split
    · rfl
    · cases parts <;> rfl

/-- What holds of an empty line and of two lines together holds of every line where two texts meet. -/
theorem Calm.append {s t : List Char} (first : Calm s) (second : Calm t) : Calm (s ++ t) := by
  obtain ⟨front, last, next, rest, one, two, whole⟩ := splitOn_append_cases '\n' s t
  rw [Calm, one, List.forall_mem_append, List.forall_mem_singleton] at first
  rw [Calm, two, List.forall_mem_cons] at second
  rw [Calm, whole, List.forall_mem_append, List.forall_mem_cons]
  exact ⟨first.1, first.2.append second.1, second.2⟩

theorem CalmStart.append {s t : List Char} (first : CalmStart s) (second : CalmStart t) : CalmStart (s ++ t) := by
  obtain ⟨front, last, next, rest, one, two, whole⟩ := splitOn_append_cases '\n' s t
  rw [CalmStart, one] at first
  rw [CalmStart, two] at second
  rw [CalmStart, whole]
  cases front with
  | nil =>
    intro line member
    cases member
    exact (first last rfl).append (second next rfl)
  | cons line others => exact first

theorem Calm.start {s : List Char} (calm : Calm s) : CalmStart s := fun line member =>
  calm line (List.mem_of_mem_head? member)

/-- A property that texts have in which no line comes near a rule, and that two texts share with what they make
together. -/
structure Seamless (P : List Char → Prop) : Prop where
  calm : ∀ {s}, Calm s → P s
  append : ∀ {s t}, P s → P t → P (s ++ t)

theorem seamless_calm : Seamless Calm := ⟨id, Calm.append⟩

theorem seamless_calmStart : Seamless CalmStart := ⟨Calm.start, CalmStart.append⟩

theorem calm_of_not_mem {s : List Char} (plain : '-' ∉ s) : Calm s := fun _ member =>
  unruled_of_not_mem fun inside => plain ((infix_of_mem_splitOn member).subset inside)

theorem calm_of_line {c : Char} (other : c ≠ '-') {rest : List Char} (oneLine : '\n' ∉ c :: rest) :
    Calm (c :: rest) := by
  rw [Calm, splitOn_of_not_mem oneLine, List.forall_mem_singleton]
  exact unruled_of_head other rest

namespace Seamless

variable {P : List Char → Prop} (seamless : Seamless P)

include seamless

theorem plain {s : List Char} (none : '-' ∉ s) : P s := seamless.calm (calm_of_not_mem none)

theorem nil : P [] := seamless.plain (by simp)

theorem cons {c : Char} (other : c ≠ '-') {s : List Char} (rest : P s) : P (c :: s) :=
  seamless.append (s := [c]) (seamless.plain (by simpa using Ne.symm other)) rest

theorem join {separator : List Char} (between : P separator) {parts : List (List Char)}
    (each : ∀ part ∈ parts, P part) : P (Text.join separator parts) := by
  induction parts with
  | nil => exact seamless.nil
  | cons part rest ih =>
    obtain ⟨here, below⟩ := List.forall_mem_cons.1 each
    by_cases last : rest = []
    · subst last
      exact here
    · rw [join_cons last]
      exact seamless.append (seamless.append here between) (ih below)

end Seamless

end Append

end Text

namespace Attrs

/-- Whether an attribute has no hyphen in its key, apart from the mark of a slot, and none in its text. Anything
but a text is written on one line and may hold hyphens. -/
def isHyphenFreeEntry (entry : String × Value) : Bool :=
  '-' ∉ ((Node.slotKey? entry.1).getD entry.1).toList && entry.2.asString?.all fun text => '-' ∉ text.toList

/-- Whether attributes have no hyphen. -/
def isHyphenFree (attrs : Attrs) : Bool := attrs.all isHyphenFreeEntry

theorem isHyphenFreeEntry_iff {key : String} {value : Value} : isHyphenFreeEntry (key, value) = true ↔
    '-' ∉ ((Node.slotKey? key).getD key).toList ∧ ∀ text, value = .str text → '-' ∉ text.toList := by
  cases value <;> simp [isHyphenFreeEntry, Value.asString?]

theorem getString?_hyphenFree {attrs : Attrs} (free : attrs.isHyphenFree = true) {key text : String}
    (found : attrs.getString? key = some text) : '-' ∉ text.toList := by
  rw [getString?, Option.bind_eq_some_iff] at found
  obtain ⟨value, found, isText⟩ := found
  have entry := List.all_eq_true.1 free (key, value) (Value.mem_of_lookup found)
  cases value with
  | str other =>
    cases isText
    exact (isHyphenFreeEntry_iff.1 entry).2 text rfl
  | _ => cases isText

end Attrs

namespace Node

/-- The two spellings of a slot. -/
theorem key_of_slotKey? {key name : String} (slot : Node.slotKey? key = some name) :
    key.toList = "v-slot:".toList ++ name.toList ∨ key.toList = '#' :: name.toList := by
  rw [Node.slotKey?] at slot
  split at slot <;> rename_i form
  all_goals
    simp only [Option.ite_none_left_eq_some, Option.some.injEq] at slot
    obtain ⟨_, rfl⟩ := slot
  · exact Or.inl (form.trans (congrArg ("v-slot:".toList ++ ·) String.toList_ofList.symm))
  · exact Or.inr (form.trans (congrArg ('#' :: ·) String.toList_ofList.symm))
  · simp_all

/-- Whether the text or the attributes of a node have no hyphen. -/
def isHyphenFree : Node → Bool
  | .text content => '-' ∉ content.toList
  | .comment content => '-' ∉ content.toList
  | .element _ attrs _ => attrs.isHyphenFree

end Node

namespace Text.Seamless

variable {P : List Char → Prop} (seamless : Seamless P)

include seamless

theorem line {c : Char} (other : c ≠ '-') {rest : List Char} (oneLine : '\n' ∉ c :: rest) : P (c :: rest) :=
  seamless.calm (calm_of_line other oneLine)

theorem key {key : String} (plain : '-' ∉ ((Node.slotKey? key).getD key).toList) : P key.toList := by
  cases slot : Node.slotKey? key with
  | none =>
    rw [slot, Option.getD_none] at plain
    exact seamless.plain plain
  | some name =>
    rw [slot, Option.getD_some] at plain
    rcases Node.key_of_slotKey? slot with long | short
    · rw [long]
      exact seamless.append (seamless.line (by decide) (by decide)) (seamless.plain plain)
    · rw [short]
      exact seamless.cons (by decide) (seamless.plain plain)

theorem quoted {text : String} (plain : '-' ∉ text.toList) : P (AttributeBlock.quoted text) := by
  refine seamless.plain ?_
  have escaped : '-' ∉ replaceChar '\x22' ['\\', '\x22'] text.toList := by
    rw [replaceChar, List.mem_flatMap]
    rintro ⟨c, member, inside⟩
    split at inside
    · exact absurd inside (by decide)
    · exact plain (List.mem_singleton.1 inside ▸ member)
  simp [AttributeBlock.quoted, escaped]

theorem spellings {key : String} {value : Value} (free : Attrs.isHyphenFreeEntry (key, value) = true) :
    ∀ part ∈ AttributeBlock.spellings key value, P part := by
  obtain ⟨plainKey, plain⟩ := Attrs.isHyphenFreeEntry_iff.1 free
  have name := seamless.key plainKey
  have bound : ∀ text : List Char, '\n' ∉ text → P (':' :: (key.toList ++ '=' :: '\x27' :: (text ++ ['\x27']))) :=
    fun text oneLine => seamless.cons (by decide) <| seamless.append name <|
      seamless.line (by decide) (by simp [oneLine])
  cases value with
  | null => exact nofun
  | bool value =>
    cases value with
    | true => exact List.forall_mem_singleton.2 name
    | false => exact List.forall_mem_singleton.2 (seamless.append name (seamless.plain (by decide)))
  | num number =>
    have oneLine := Json.feed_not_mem_numberText number
    exact List.forall_mem_singleton.2 (seamless.append name (seamless.line (by decide) (by simp [oneLine])))
  | str text =>
    rw [AttributeBlock.spellings]
    split
    · rename_i id
      have solid : ∀ c ∈ text.toList, isBlank c = false := by simpa using id.2.2
      exact List.forall_mem_singleton.2
        (seamless.line (by decide) (by simp [AttributeBlock.not_mem_of_solid solid]))
    · split
      · refine List.forall_mem_map.2 fun word member => seamless.line (by decide) ?_
        simp [AttributeBlock.not_mem_of_solid (mem_words member).2]
      · exact List.forall_mem_singleton.2
          (seamless.append name (seamless.cons (by decide) (seamless.quoted (plain text rfl))))
  | arr items => exact List.forall_mem_singleton.2 (bound _ (Json.feed_not_mem_compact _))
  | obj fields => exact List.forall_mem_singleton.2 (bound _ (Json.feed_not_mem_compact _))

theorem attributeBlock {attrs : Attrs} (free : attrs.isHyphenFree = true) (skip : List String) :
    P (AttributeBlock.write attrs skip) := by
  have each : ∀ part ∈ AttributeBlock.parts attrs skip, P part := by
    intro part member
    obtain ⟨⟨key, value⟩, listed, inside⟩ := List.mem_flatMap.1 member
    simp only at inside
    split at inside
    · cases inside
    · exact seamless.spellings (List.all_eq_true.1 free _ listed) part inside
  rw [AttributeBlock.write]
  split
  · exact seamless.nil
  · exact seamless.cons (by decide)
      (seamless.append (seamless.join (seamless.plain (by decide)) each) (seamless.plain (by decide)))

theorem getString {attrs : Attrs} (free : attrs.isHyphenFree = true) (key : String) :
    P ((attrs.getString? key).getD "").toList := by
  cases found : attrs.getString? key with
  | none => exact seamless.nil
  | some text => exact seamless.plain (Attrs.getString?_hyphenFree free found)

theorem target {attrs : Attrs} (free : attrs.isHyphenFree = true) (key : String) : P (Writer.target attrs key) := by
  have address := seamless.getString free key
  rw [Writer.target]
  cases found : attrs.getString? "title" with
  | none =>
    refine seamless.cons (by decide) ?_
    exact seamless.append (seamless.append address seamless.nil) (seamless.plain (by decide))
  | some title =>
    have quoted := seamless.quoted (Attrs.getString?_hyphenFree free found)
    exact seamless.cons (by decide) (seamless.append (seamless.append address (seamless.cons (by decide) quoted))
      (seamless.plain (by decide)))

theorem comment {text : String} (plain : '-' ∉ text.toList) : P (Writer.comment text) := by
  have closing : Calm "-->".toList := by
    rw [Calm, splitOn_of_not_mem (by decide), List.forall_mem_singleton]
    exact Or.inr ⟨'>', by decide, by decide⟩
  exact seamless.append (seamless.append (seamless.line (by decide) (by decide)) (seamless.plain plain))
    (seamless.calm closing)

theorem binding {attrs : Attrs} (free : attrs.isHyphenFree = true) : P (Writer.binding attrs) := by
  have closing : P " \x7d\x7d".toList := seamless.plain (by decide)
  have front :=
    seamless.append (s := "\x7b\x7b ".toList) (seamless.plain (by decide)) (seamless.getString free "value")
  rw [Writer.binding]
  split
  · rename_i text found
    have plain := Attrs.getString?_hyphenFree free (by rw [Attrs.getString?, found]; rfl : _ = some text)
    refine seamless.append (seamless.append front ?_) closing
    exact seamless.append (seamless.plain (by decide))
      (seamless.cons (by decide) (seamless.append (seamless.plain plain) (seamless.plain (by decide))))
  · rename_i number found
    have oneLine := Json.feed_not_mem_numberText number
    refine seamless.append (seamless.append front ?_) closing
    have separated : '\n' ∉ " || ".toList ++ Json.numberText number := by
      rw [List.mem_append, not_or]
      exact ⟨by decide, oneLine⟩
    exact seamless.line (c := ' ') (by decide) separated
  · exact seamless.append (seamless.append front seamless.nil) closing

theorem codeSpan {code : List Char} (plain : '-' ∉ code) (afterBacktick : Bool) :
    P (CodeFence.writeSpan afterBacktick code) := by
  refine seamless.plain ?_
  rw [CodeFence.writeSpan]
  split <;> split <;> simp [plain, CodeFence.backtick]

theorem code {attrs : Attrs} (free : attrs.isHyphenFree = true) {text : String} (plain : '-' ∉ text.toList) :
    P (Writer.code attrs text) := by
  have written : ∀ key, ∀ part ∈ attrs.getString? key, '-' ∉ part.toList := fun _ _ found =>
    Attrs.getString?_hyphenFree free found
  have code : '-' ∉ ((attrs.getString? "code").getD text).toList := by
    cases found : attrs.getString? "code" with
    | none => exact plain
    | some other => exact written _ other found
  have fence : ∀ n, P (List.replicate n CodeFence.backtick) := fun n =>
    seamless.plain fun member => absurd (List.eq_of_mem_replicate member) (by decide)
  have info : P (CodeFence.Info.write
      ⟨attrs.getString? "language", attrs.getString? "filename", attrs.getString? "meta"⟩) := by
    refine seamless.plain (CodeFence.not_mem_write (by decide) (by decide) (by decide) ?_)
    simp only [List.forall_mem_cons]
    exact ⟨written "language", written "filename", written "meta", List.forall_mem_nil _⟩
  rw [Writer.code, CodeFence.write]
  refine seamless.append (seamless.append (fence _) info) (seamless.cons (by decide) (seamless.append ?_ (fence _)))
  split
  · exact seamless.nil
  · exact seamless.append (seamless.plain code) (seamless.plain (by decide))

end Text.Seamless

namespace Node

/-- What makes the lines in which a node is written no rules: it has no hyphens, and the names of its components
make no rules either. -/
structure HasNoRule (P : List Char → Prop) (node : Node) : Prop where
  free : ∀ part ∈ node.inOrder, part.isHyphenFree = true
  named : ∀ part ∈ node.inOrder, ∀ tag ∈ part.tag?, P (':' :: tag.toList)

variable {P : List Char → Prop} {tag : String} {attrs : Attrs} {children : List Node}

theorem HasNoRule.child (whole : HasNoRule P (element tag attrs children)) {child : Node}
    (member : child ∈ children) : HasNoRule P child := by
  have inside : ∀ part ∈ child.inOrder, part ∈ (element tag attrs children).inOrder := by
    intro part listed
    rw [inOrder_element]
    exact List.mem_cons_of_mem _ (List.mem_flatMap.2 ⟨child, member, listed⟩)
  exact ⟨fun part listed => whole.free part (inside part listed),
    fun part listed => whole.named part (inside part listed)⟩

theorem HasNoRule.own {node : Node} (whole : HasNoRule P node) : node.isHyphenFree = true := by
  refine whole.free node ?_
  cases node <;> simp [inOrder]

theorem HasNoRule.name (whole : HasNoRule P (element tag attrs children)) : P (':' :: tag.toList) :=
  whole.named (element tag attrs children) (by simp [inOrder]) tag rfl

theorem HasNoRule.textContent {node : Node} (whole : HasNoRule P node) : '-' ∉ node.textContent.toList := by
  induction node using Node.induction with
  | text content =>
    rw [textContent_text]
    exact of_decide_eq_true whole.own
  | comment content => simp
  | element tag attrs children ih =>
    rw [Node.textContent]
    split
    · simp
    · rw [toList_textOf, List.mem_flatMap]
      rintro ⟨child, member, inside⟩
      exact ih child member (whole.child member) inside

theorem HasNoRule.textOf (whole : HasNoRule P (element tag attrs children)) : '-' ∉ (textOf children).toList := by
  rw [toList_textOf, List.mem_flatMap]
  rintro ⟨child, member, inside⟩
  exact (whole.child member).textContent inside

end Node

namespace Text.Seamless

open Node (render)

variable {P : List Char → Prop} (seamless : Seamless P)

include seamless

theorem inlines {nodes : List Node} (each : ∀ node ∈ nodes, ∀ behind, P (node.render.rendering.inline behind))
    (afterBacktick : Bool) : P (Writer.inlines afterBacktick (nodes.map render)) := by
  induction nodes generalizing afterBacktick with
  | nil => exact seamless.nil
  | cons node rest ih =>
    obtain ⟨here, below⟩ := List.forall_mem_cons.1 each
    exact seamless.append (here _) (ih below _)

/-- What a node is written as inside a line. -/
theorem inline {node : Node} (whole : node.HasNoRule P) (afterBacktick : Bool) :
    P (node.render.rendering.inline afterBacktick) := by
  induction node using Node.induction generalizing afterBacktick with
  | text content => exact seamless.plain (of_decide_eq_true whole.own)
  | comment content => exact seamless.comment (of_decide_eq_true whole.own)
  | element tag attrs children ih =>
    have items := seamless.inlines (fun child member => ih child member (whole.child member)) false
    have block := seamless.attributeBlock whole.own
    have delimited : ∀ delimiter : List Char, '-' ∉ delimiter →
        P (Writer.delimited delimiter attrs (children.map render)) := by
      intro delimiter plain
      have front := seamless.append (seamless.plain plain) items
      exact seamless.append (seamless.append front (seamless.plain plain)) (block [])
    have braces : P ['\x7b', '\x7d'] := seamless.plain (by decide)
    rw [render, Node.renderAll_eq_map]
    simp only [Writer.inlineElement]
    split
    · exact delimited _ (by decide)
    · exact delimited _ (by decide)
    · exact delimited _ (by decide)
    · exact seamless.append (seamless.codeSpan whole.textOf _) (block _)
    · have target := seamless.target whole.own "href"
      exact seamless.cons (by decide)
        (seamless.append (seamless.append items (seamless.cons (by decide) target)) (block _))
    · have target := seamless.target whole.own "src"
      have alt := seamless.getString whole.own "alt"
      exact seamless.cons (by decide) (seamless.cons (by decide)
        (seamless.append (seamless.append alt (seamless.cons (by decide) target)) (block _)))
    · exact seamless.plain (by decide)
    · refine seamless.cons (by decide) (seamless.append items (seamless.cons (by decide) ?_))
      split
      · exact braces
      · exact block []
    · exact seamless.binding whole.own
    · exact items
    · exact seamless.nil
    · rw [Writer.inlineComponent]
      refine seamless.append (seamless.append whole.name ?_) ?_
      · split
        · exact seamless.nil
        · exact seamless.cons (by decide) (seamless.append items (seamless.plain (by decide)))
      · split
        · exact braces
        · exact block []

end Text.Seamless

end ComponentMarkdown
