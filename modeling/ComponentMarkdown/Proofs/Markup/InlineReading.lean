import ComponentMarkdown.Markup.Inline
import ComponentMarkdown.Proofs.Markup.BlockEnd
import ComponentMarkdown.Proofs.Text

namespace ComponentMarkdown

namespace Inline

section Pieces

theorem chars_append (front rest : List Piece) :
    chars (front ++ rest) = chars front ++ chars rest := List.map_append

theorem length_chars (rest : List Piece) : (chars rest).length = rest.length := List.length_map _

/-- Characters of text. -/
def textPieces (s : List Char) : List Piece := s.map .char

@[simp]
theorem chars_textPieces (s : List Char) : chars (textPieces s) = s := by
  rw [chars, textPieces, List.map_map]
  exact List.map_id s

@[simp]
theorem length_textPieces (s : List Char) : (textPieces s).length = s.length := List.length_map _

theorem textPieces_append (s t : List Char) : textPieces (s ++ t) = textPieces s ++ textPieces t := List.map_append

/-- Pieces that count as characters other than the one for nodes are these characters. -/
theorem eq_textPieces_of_chars {front : List Piece} {s : List Char} (same : chars front = s) (text : '\ufffc' ∉ s) :
    front = textPieces s := by
  subst same
  induction front with
  | nil => rfl
  | cons piece rest ih =>
    simp only [chars, List.map_cons, List.mem_cons, not_or] at text
    cases piece with
    | node node => exact absurd rfl text.1
    | char c => exact congrArg _ (ih text.2)

theorem eq_textPieces_of_noNode {front : List Piece} (noNode : front.any Piece.isNode = false) :
    front = textPieces (chars front) := by
  induction front with
  | nil => rfl
  | cons piece rest ih =>
    rw [List.any_cons, Bool.or_eq_false_iff] at noNode
    cases piece with
    | node node => cases noNode.1
    | char c => exact congrArg _ (ih noNode.2)

theorem textPieces_noNode (s : List Char) : (textPieces s).any Piece.isNode = false := by
  rw [textPieces, List.any_map]
  exact List.any_eq_false.2 fun c _ => Bool.false_ne_true

/-- Pieces are cut where their characters are. -/
theorem exists_of_chars {rest : List Piece} {s t : List Char} (same : chars rest = s ++ t) :
    ∃ front back, rest = front ++ back ∧ chars front = s ∧ chars back = t := List.map_eq_append_iff.1 same

theorem exists_textPieces_of_chars {rest : List Piece} {s t : List Char} (same : chars rest = s ++ t)
    (text : '\ufffc' ∉ s) : ∃ back, rest = textPieces s ++ back ∧ chars back = t := by
  obtain ⟨front, back, rfl, first, second⟩ := exists_of_chars same
  exact ⟨back, by rw [eq_textPieces_of_chars first text], second⟩

end Pieces

section Shapes

variable {before : Option Piece} {rest : List Piece}

/-- Attributes are characters that are an attribute block. -/
theorem attributes?_eq_some_iff {attrs : Attrs} {n : Nat} : attributes? rest = some (attrs, n) ↔
    ∃ block back, rest = textPieces block ++ back ∧
    AttributeBlock.split? (block ++ chars back) = some (block, chars back) ∧
      AttributeBlock.read block = .ok attrs ∧ n = block.length := by
  rw [attributes?, Option.bind_eq_bind, Option.bind_eq_some_iff]
  constructor
  · rintro ⟨⟨block, tail⟩, cut, found⟩
    obtain ⟨whole, _, _⟩ := AttributeBlock.split?_eq_append cut
    obtain ⟨front, back, rfl, rfl, rfl⟩ := exists_of_chars whole
    simp only [length_chars, List.take_left] at found
    by_cases noNode : front.any Piece.isNode = true
    · simp [noNode] at found
    · rw [Bool.not_eq_true] at noNode
      simp only [noNode, Bool.false_eq_true, if_false, Option.bind_eq_bind,
        Option.bind_eq_some_iff, Option.pure_def, Option.some.injEq, Prod.mk.injEq] at found
      obtain ⟨read, parsed, rfl, rfl⟩ := found
      rw [chars_append] at cut
      refine ⟨chars front, back, by rw [← eq_textPieces_of_noNode noNode], cut, ?_, (length_chars front).symm⟩
      cases outcome : AttributeBlock.read (chars front) with
      | error e => simp [outcome, Except.toOption] at parsed
      | ok attrs =>
        rw [outcome] at parsed
        exact congrArg _ (Option.some.inj parsed)
  · rintro ⟨block, back, rfl, cut, parsed, rfl⟩
    refine ⟨(block, chars back), by rwa [chars_append, chars_textPieces], ?_⟩
    have front : (textPieces block ++ back).take block.length = textPieces block := by
      rw [← length_textPieces block, List.take_left]
    simp only [front, textPieces_noNode, Bool.false_eq_true, if_false, parsed, Except.toOption]
    rfl

theorem labelEnd?_spec {depth n : Nat} {s : List Char} (deep : 0 < depth) (found : labelEnd? depth s = some n) :
    ∃ inner tail, s = inner ++ ']' :: tail ∧ n = inner.length + 1 := by
  fun_induction labelEnd? depth s generalizing n with
  | case1 => cases found
  | case2 => cases found
  | case3 depth c rest ih =>
    obtain ⟨m, later, rfl⟩ := Option.map_eq_some_iff.1 found
    obtain ⟨inner, tail, rfl, rfl⟩ := ih deep later
    exact ⟨'\\' :: c :: inner, tail, rfl, rfl⟩
  | case4 depth rest ih =>
    obtain ⟨m, later, rfl⟩ := Option.map_eq_some_iff.1 found
    obtain ⟨inner, tail, rfl, rfl⟩ := ih (by omega) later
    exact ⟨'[' :: inner, tail, rfl, rfl⟩
  | case5 => cases found
  | case6 rest =>
    cases found
    exact ⟨[], rest, rfl, rfl⟩
  | case7 depth rest some deeper ih =>
    obtain ⟨m, later, rfl⟩ := Option.map_eq_some_iff.1 found
    obtain ⟨inner, tail, rfl, rfl⟩ := ih (by omega) later
    exact ⟨']' :: inner, tail, rfl, rfl⟩
  | case8 depth c rest _ _ _ _ ih =>
    obtain ⟨m, later, rfl⟩ := Option.map_eq_some_iff.1 found
    obtain ⟨inner, tail, rfl, rfl⟩ := ih deep later
    exact ⟨c :: inner, tail, rfl, rfl⟩

theorem drop_label (label behind : List Piece) :
    (textPieces ['['] ++ (label ++ (textPieces [']'] ++ behind))).drop (label.length + 2) = behind := by
  simp [textPieces]

theorem take_label (label behind : List Piece) :
    (textPieces ['['] ++ (label ++ (textPieces [']'] ++ behind))).take (label.length + 2) =
    textPieces ['['] ++ (label ++ textPieces [']']) := by
  simp [textPieces, List.take_append, List.take_of_length_le]

/-- A label stands between brackets. -/
theorem label?_eq_some_iff {label : List Piece} {n : Nat} : label? rest = some (label, n) ↔
    ∃ back, rest = textPieces ['['] ++ (label ++ (textPieces [']'] ++ back)) ∧
      labelEnd? 1 (chars (label ++ (textPieces [']'] ++ back))) = some (label.length + 1) ∧
        n = label.length + 2 := by
  constructor
  · intro found
    rw [label?] at found
    split at found
    · rename_i behind start
      obtain ⟨inside, rfl, rfl⟩ := exists_textPieces_of_chars (s := ['[']) start (by decide)
      rw [chars_append, chars_textPieces, List.singleton_append, labelEnd?] at found
      obtain ⟨size, ends, same⟩ := Option.map_eq_some_iff.1 found
      obtain ⟨m, later, rfl⟩ := Option.map_eq_some_iff.1 ends
      obtain ⟨inner, tail, cut, rfl⟩ := labelEnd?_spec (by decide) later
      obtain ⟨front, back, rfl, rfl, behind⟩ := exists_of_chars cut
      obtain ⟨back, rfl, -⟩ := exists_textPieces_of_chars (s := [']']) (t := tail) behind (by decide)
      obtain ⟨rfl, rfl⟩ := Prod.mk.inj same
      have label_ : List.drop 1 (List.take ((chars front).length + 1 + 1 - 1)
          (textPieces ['['] ++ (front ++ (textPieces [']'] ++ back)))) = front := by
        rw [length_chars]
        simp [textPieces]
      rw [label_, length_chars]
      rw [length_chars] at later
      exact ⟨back, rfl, later, rfl⟩
    · cases found
  · rintro ⟨back, rfl, ends, rfl⟩
    have start : chars (textPieces ['['] ++ (label ++ (textPieces [']'] ++ back))) =
        '[' :: chars (label ++ (textPieces [']'] ++ back)) := by
      rw [chars_append, chars_textPieces, List.singleton_append]
    rw [label?, start]
    simp only [labelEnd?, ends, Option.map_some, Option.some.injEq, Prod.mk.injEq, and_true]
    simp [textPieces]

theorem label?_of_head (other : (chars rest).head? ≠ some '[') : label? rest = none := by
  rw [label?]
  split
  · rename_i same
    rw [same] at other
    exact absurd rfl other
  · rfl

theorem attributes?_of_head (other : (chars rest).head? ≠ some '\x7b') : attributes? rest = none := by
  rw [attributes?]
  cases start : chars rest with
  | nil => rfl
  | cons c more =>
    rw [start] at other
    rw [AttributeBlock.split?]
    · rfl
    · rintro more same
      rw [same] at other
      exact other rfl

theorem bindingBody?_eq_append {s body : List Char} (found : bindingBody? s = some body) :
    ∃ tail, s = body ++ '\x7d' :: '\x7d' :: tail := by
  fun_induction bindingBody? s generalizing body with
  | case1 tail =>
    cases found
    exact ⟨tail, rfl⟩
  | case2 c rest _ ih =>
    obtain ⟨inner, later, rfl⟩ := Option.map_eq_some_iff.1 found
    obtain ⟨tail, rfl⟩ := ih later
    exact ⟨tail, rfl⟩
  | case3 => cases found

/-- What a binding says whose braces stand around a text. -/
def bindingAttrs (body : List Char) : Attrs :=
  ("value", .str (String.ofList (Text.trim (splitDefault body).1))) ::
    ((splitDefault body).2.map fun default => ("defaultValue", defaultValue (Text.trim default))).toList

theorem bindingAttrs_eq_match (body : List Char) : bindingAttrs body =
    match (splitDefault body).2 with
    | none => [("value", .str (String.ofList (Text.trim (splitDefault body).1)))]
    | some default =>
    Attrs.insert [("value", .str (String.ofList (Text.trim (splitDefault body).1)))] "defaultValue"
        (defaultValue (Text.trim default)) := by
  rw [bindingAttrs]
  cases (splitDefault body).2 <;> rfl

/-- Where two closing braces end a binding that starts, there are pieces for it. -/
theorem exists_braced {inner body : List Char} (start : chars rest = '\x7b' :: '\x7b' :: inner)
    (ends : bindingBody? inner = some body) : ∃ block back, rest = block ++ back ∧
      chars block = '\x7b' :: '\x7b' :: (body ++ ['\x7d', '\x7d']) ∧
        inner = body ++ '\x7d' :: '\x7d' :: chars back := by
  obtain ⟨tail, rfl⟩ := bindingBody?_eq_append ends
  have whole : chars rest = ('\x7b' :: '\x7b' :: (body ++ ['\x7d', '\x7d'])) ++ tail := by simp [start]
  obtain ⟨block, back, rfl, first, rfl⟩ := exists_of_chars whole
  exact ⟨block, back, rfl, first, rfl⟩

/-- Between braces a binding is text on one line, with a value. -/
theorem binding?_braced {body : List Char} {block back : List Piece}
    (first : chars block = '\x7b' :: '\x7b' :: (body ++ ['\x7d', '\x7d']))
    (ends : bindingBody? (body ++ '\x7d' :: '\x7d' :: chars back) = some body) : binding? (block ++ back) =
      if '\n' ∈ body ∨ Text.trim (splitDefault body).1 = [] ∨ block.any Piece.isNode = true then none
      else some ⟨"binding", bindingAttrs body, [], body.length + 4⟩ := by
  have length : block.length = body.length + 4 := by
    rw [← length_chars, first]
    simp
  have taken : (block ++ back).take (body.length + 4) = block := by rw [← length, List.take_left]
  have start : chars (block ++ back) = '\x7b' :: '\x7b' :: (body ++ '\x7d' :: '\x7d' :: chars back) := by
    rw [chars_append, first]
    simp
  rw [binding?, start, bindingAttrs_eq_match]
  simp only [ends, taken, Option.bind_eq_bind, Option.bind_some]
  by_cases line : '\n' ∈ body
  · simp [line]
  by_cases empty : Text.trim (splitDefault body).1 = []
  · simp [empty]
  by_cases node : block.any Piece.isNode = true
  · simp [node]
  simp only [line, empty, node, List.isEmpty_iff, Bool.false_eq_true, or_self, if_false]
  rfl

/-- A binding is a line of text between braces, with a value. -/
theorem binding?_eq_some_iff {found : Construct} : binding? rest = some found ↔
    ∃ body back, rest = textPieces ('\x7b' :: '\x7b' :: (body ++ ['\x7d', '\x7d'])) ++ back ∧
      bindingBody? (body ++ '\x7d' :: '\x7d' :: chars back) = some body ∧ '\n' ∉ body ∧
      Text.trim (splitDefault body).1 ≠ [] ∧ found = ⟨"binding", bindingAttrs body, [], body.length + 4⟩ := by
  constructor
  · intro here
    have cut := here
    rw [binding?] at cut
    split at cut
    · rename_i inner start
      obtain ⟨body, ends, _⟩ := Option.bind_eq_some_iff.1 cut
      obtain ⟨block, back, rfl, first, rfl⟩ := exists_braced start ends
      rw [binding?_braced first ends] at here
      obtain ⟨good, same⟩ := Option.ite_none_left_eq_some.1 here
      rw [not_or, not_or, Bool.not_eq_true] at good
      have text := eq_textPieces_of_noNode good.2.2
      exact ⟨body, back, by rw [← first, ← text], ends, good.1, good.2.1, (Option.some.inj same).symm⟩
    · cases cut
  · rintro ⟨body, back, rfl, ends, oneLine, some, rfl⟩
    rw [binding?_braced (chars_textPieces _) ends, textPieces_noNode, if_neg (by simp [oneLine, some])]

/-- A span is a label with attributes behind it. -/
theorem span?_eq_some_iff {found : Construct} : span? rest = some found ↔
    ∃ label labelSize attrs size, label? rest = some (label, labelSize) ∧
      attributes? (rest.drop labelSize) = some (attrs, size) ∧
        found = ⟨"span", attrs, label, labelSize + size⟩ := by
  constructor
  · intro here
    obtain ⟨⟨label, labelSize⟩, labelled, here⟩ := Option.bind_eq_some_iff.1 here
    obtain ⟨⟨attrs, size⟩, read, here⟩ := Option.bind_eq_some_iff.1 here
    exact ⟨label, labelSize, attrs, size, labelled, read, (Option.some.inj here).symm⟩
  · rintro ⟨label, labelSize, attrs, size, labelled, read, rfl⟩
    simp only [span?, labelled, read, Option.bind_eq_bind, Option.bind_some]
    rfl

/-- The name of a component that starts is cut off in front of the first character that is none of a name. -/
theorem exists_named {inner : List Char} (start : chars rest = ':' :: inner) : ∃ name after,
    rest = textPieces (':' :: name) ++ after ∧ name = inner.takeWhile isNameChar ∧
    (∀ c ∈ name, isNameChar c = true) ∧
      ∀ c ∈ (chars after).head?, isNameChar c = false := by
  have chars_ : ∀ c ∈ inner.takeWhile isNameChar,
    isNameChar c = true := fun c member => List.mem_takeWhile_imp member
  have text : '\ufffc' ∉ ':' :: inner.takeWhile isNameChar := by
    rw [List.mem_cons, not_or]
    exact ⟨by decide, fun member => absurd (chars_ _ member) (by decide)⟩
  have cut : chars rest = (':' :: inner.takeWhile isNameChar) ++ inner.dropWhile isNameChar := by
    rw [start, List.cons_append, List.takeWhile_append_dropWhile]
  obtain ⟨after, rfl, behind⟩ := exists_textPieces_of_chars cut text
  refine ⟨_, after, rfl, rfl, chars_, fun c first => ?_⟩
  have ends := List.head?_dropWhile_not isNameChar inner
  rw [behind] at first
  rw [first] at ends
  simpa using ends

/-- What is behind a name decides about the component. -/
theorem component?_named {name : List Char} {after : List Piece} (chars_ : ∀ c ∈ name, isNameChar c = true)
    (stop : ∀ c ∈ (chars after).head?, isNameChar c = false) : component? (textPieces (':' :: name) ++ after) =
      let label := label? after
      let labelSize := (label.map Prod.snd).getD 0
      let attrs := attributes? (after.drop labelSize)
      if name.head?.any Char.isAlpha = true ∧ (label.isSome ∨ attrs.isSome) then
        some ⟨String.ofList name, (attrs.map Prod.fst).getD [], (label.map Prod.fst).getD [],
          name.length + 1 + labelSize + (attrs.map Prod.snd).getD 0⟩
      else none := by
  have start : chars (textPieces (':' :: name) ++ after) = ':' :: (name ++ chars after) := by
    rw [chars_append, chars_textPieces, List.cons_append]
  have name_ : (name ++ chars after).takeWhile isNameChar = name := Text.takeWhile_append_stop chars_ stop
  have after_ : (textPieces (':' :: name) ++ after).drop (name.length + 1) = after := by
    rw [← List.length_cons (a := ':'), ← length_textPieces, List.drop_left]
  rw [component?, start]
  simp only [name_, after_]
  by_cases letter : name.head?.any Char.isAlpha = true
  swap
  · simp [letter]
  have turned : ((label? after).isNone = true ∧
    (attributes? (after.drop (((label? after).map Prod.snd).getD 0))).isNone = true) ↔
      ¬ ((label? after).isSome = true ∨
        (attributes? (after.drop (((label? after).map Prod.snd).getD 0))).isSome = true) := by
    simp [not_or]
  simp only [letter, turned, ite_not, true_and, Bool.not_true, Bool.false_eq_true, if_false]

/-- A component is a name with a label, attributes or both behind it. -/
theorem component?_eq_some_iff {found : Construct} : component? rest = some found ↔
    ∃ name after, rest = textPieces (':' :: name) ++ after ∧ name.head?.any Char.isAlpha = true ∧
      (∀ c ∈ name, isNameChar c = true) ∧ (∀ c ∈ (chars after).head?, isNameChar c = false) ∧
      let label := label? after
      let labelSize := (label.map Prod.snd).getD 0
      let attrs := attributes? (after.drop labelSize)
      (label.isSome ∨ attrs.isSome) ∧
        found = ⟨String.ofList name, (attrs.map Prod.fst).getD [], (label.map Prod.fst).getD [],
          name.length + 1 + labelSize + (attrs.map Prod.snd).getD 0⟩ := by
  constructor
  · intro here
    have cut := here
    rw [component?] at cut
    split at cut
    · rename_i inner start
      obtain ⟨name, after, rfl, _, chars_, stop⟩ := exists_named start
      rw [component?_named chars_ stop] at here
      obtain ⟨⟨letter, some⟩, same⟩ := Option.ite_none_right_eq_some.1 here
      exact ⟨name, after, rfl, letter, chars_, stop, some, (Option.some.inj same).symm⟩
    · cases cut
  · rintro ⟨name, after, rfl, letter, chars_, stop, some, rfl⟩
    rw [component?_named chars_ stop]
    exact if_pos ⟨letter, some⟩

/-- The characters at the start of pieces decide which construct is looked for. -/
theorem construct?_eq (before : Option Piece) (rest : List Piece) : construct? before rest =
    match chars rest with
    | '\x7b' :: '\x7b' :: _ => binding? rest
    | ':' :: _ => if before.any (fun piece => Text.isAlphanumeric piece.toChar) then none else component? rest
    | '[' :: _ => span? rest
    | _ => none := by
  have first : chars (rest.take 2) = (chars rest).take 2 := List.map_take
  rw [construct?, first]
  generalize chars rest = s
  rcases s with _ | ⟨c, _ | ⟨d, s⟩⟩
  · rfl
  · rfl
  · rw [List.take_succ_cons, List.take_succ_cons, List.take_zero]
    split <;> split <;> simp_all

end Shapes

section Frames

/-- A construct stands at the start of pieces: characters in front of its label and characters behind it. -/
structure Construct.Frames (found : Construct) (rest : List Piece) (front back : List Char)
    (after : List Piece) : Prop where
  whole : rest = textPieces front ++ (found.label ++ (textPieces back ++ after))
  some : front ≠ []
  closed : back = [] → found.label = []
  size : found.size = front.length + found.label.length + back.length

variable {before : Option Piece} {rest after : List Piece} {found : Construct}

theorem binding?_frames (here : binding? rest = some found) :
    ∃ front back after, found.Frames rest front back after := by
  obtain ⟨body, after, rfl, _, _, _, rfl⟩ := binding?_eq_some_iff.1 here
  exact ⟨'\x7b' :: '\x7b' :: (body ++ ['\x7d', '\x7d']), [], after, rfl, by simp, fun _ => rfl, by simp⟩

theorem span?_frames (here : span? rest = some found) : ∃ front back after, found.Frames rest front back after := by
  obtain ⟨label, _, attrs, _, labelled, read, rfl⟩ := span?_eq_some_iff.1 here
  obtain ⟨behind, rfl, _, rfl⟩ := label?_eq_some_iff.1 labelled
  rw [drop_label] at read
  obtain ⟨block, after, rfl, _, _, rfl⟩ := attributes?_eq_some_iff.1 read
  refine ⟨['['], ']' :: block, after, ?_, by simp, by simp, ?_⟩
  · simp [textPieces]
  · simp only [List.length_cons, List.length_nil]
    omega

/-- The block that the attributes are read of, or none. -/
theorem exists_block (behind : List Piece) : ∃ block after, behind = textPieces block ++ after ∧
    ((attributes? behind).map Prod.snd).getD 0 = block.length := by
  cases read : attributes? behind with
  | none => exact ⟨[], behind, rfl, rfl⟩
  | some found =>
    obtain ⟨attrs, n⟩ := found
    obtain ⟨block, after, rfl, _, _, rfl⟩ := attributes?_eq_some_iff.1 read
    exact ⟨block, after, rfl, rfl⟩

/-- A component stands in front of the block behind its label, or behind its name. -/
theorem named_frames (name : List Char) (behind : List Piece) :
    let label := label? behind
    let labelSize := (label.map Prod.snd).getD 0
    let attrs := attributes? (behind.drop labelSize)
    ∃ front back after,
      Construct.Frames ⟨String.ofList name, (attrs.map Prod.fst).getD [], (label.map Prod.fst).getD [],
          name.length + 1 + labelSize + (attrs.map Prod.snd).getD 0⟩
        (textPieces (':' :: name) ++ behind) front back after ∧
      (label.isSome = true → front = ':' :: name ++ ['[']) := by
  cases labelled : label? behind with
  | none =>
    obtain ⟨written, after, same, size⟩ := exists_block behind
    simp only [Option.map_none, Option.getD_none, List.drop_zero, size]
    refine ⟨':' :: name ++ written, [], after, ⟨?_, by simp, fun _ => rfl, ?_⟩, nofun⟩
    · rw [same]
      simp [textPieces]
    · simp only [List.length_append, List.length_cons, List.length_nil]
      omega
  | some found =>
    obtain ⟨label, _⟩ := found
    obtain ⟨inside, rfl, _, rfl⟩ := label?_eq_some_iff.1 labelled
    obtain ⟨written, after, rfl, size⟩ := exists_block inside
    simp only [Option.map_some, Option.getD_some, drop_label, size]
    refine ⟨':' :: name ++ ['['], ']' :: written, after, ⟨?_, by simp, by simp, ?_⟩, fun _ => rfl⟩
    · simp [textPieces]
    · simp only [List.length_append, List.length_cons, List.length_nil]
      omega

theorem component?_frames (here : component? rest = some found) :
    ∃ front back after, found.Frames rest front back after := by
  obtain ⟨name, behind, rfl, _, _, _, _, rfl⟩ := component?_eq_some_iff.1 here
  obtain ⟨front, back, after, frames, _⟩ := named_frames name behind
  exact ⟨front, back, after, frames⟩

theorem construct?_frames (here : construct? before rest = some found) :
    ∃ front back after, found.Frames rest front back after := by
  rw [construct?] at here
  split at here
  · exact binding?_frames here
  · split at here
    · cases here
    · exact component?_frames here
  · exact span?_frames here
  · cases here

variable {front back : List Char} (frames : found.Frames rest front back after)

include frames

theorem Construct.Frames.cut : rest.take found.size = textPieces front ++ (found.label ++ textPieces back) ∧
    rest.drop found.size = after := by
  have length : found.size = (textPieces front ++ (found.label ++ textPieces back)).length := by
    rw [frames.size, List.length_append, List.length_append, length_textPieces, length_textPieces, Nat.add_assoc]
  have whole : rest = textPieces front ++ (found.label ++ textPieces back) ++ after := by
    rw [frames.whole, List.append_assoc, List.append_assoc]
  rw [whole, length]
  exact ⟨List.take_left, List.drop_left⟩

theorem Construct.Frames.bounds : 0 < found.size ∧ found.size ≤ rest.length ∧ found.label.length < found.size := by
  have length := congrArg List.length frames.whole
  have positive := List.length_pos_of_ne_nil frames.some
  simp only [List.length_append, length_textPieces] at length
  have size := frames.size
  omega

theorem Construct.Frames.shorter : after.length < rest.length := by
  have length := congrArg List.length frames.whole
  have positive := List.length_pos_of_ne_nil frames.some
  simp only [List.length_append, length_textPieces] at length
  omega

/-- A construct ends in a character. -/
theorem Construct.Frames.last :
    ∃ c, (front ++ back).getLast? = Option.some c ∧ rest[found.size - 1]? = Option.some (Piece.char c) := by
  have taken : ∃ init c, textPieces front ++ (found.label ++ textPieces back) = init ++ [Piece.char c] ∧
      (front ++ back).getLast? = Option.some c := by
    rcases List.eq_nil_or_concat back with closed | ⟨init, c, rfl⟩
    · obtain ⟨init, c, same⟩ := (List.eq_nil_or_concat front).resolve_left frames.some
      exact ⟨textPieces init,
        c, by rw [frames.closed closed, closed, same]; simp [textPieces], by simp [closed, same]⟩
    · exact ⟨textPieces front ++ (found.label ++ textPieces init), c, by simp [textPieces], by simp⟩
  obtain ⟨init, c, taken, last⟩ := taken
  have length := congrArg List.length taken
  simp only [List.length_append, length_textPieces, List.length_singleton] at length
  have whole : rest = init ++ Piece.char c :: after := by
    rw [frames.whole, ← List.append_assoc found.label, ← List.append_assoc, taken,
      List.append_assoc, List.singleton_append]
  have place : found.size - 1 = init.length := by
    rw [frames.size]
    omega
  exact ⟨c, last,
    by rw [whole, place, List.getElem?_append_right (Nat.le_refl _), Nat.sub_self, List.getElem?_cons_zero]⟩

end Frames

section Steps

theorem trailing?_eq_some {before : Option Piece} {rest : List Piece} {attrs : Attrs} {size : Nat}
    (found : trailing? before rest = some (attrs, size)) :
    before.any Piece.isElement = true ∧ chars (rest.take 2) ≠ ['\x7b', '\x7b'] ∧
    attributes? rest = some (attrs, size) := by
  rw [trailing?] at found
  split at found
  · cases found
  · rename_i free
    rw [not_or, Bool.not_eq_true', Bool.not_eq_false] at free
    exact ⟨free.2, free.1, found⟩

theorem attributes?_bounds {rest : List Piece} {attrs : Attrs} {size : Nat}
    (found : attributes? rest = some (attrs, size)) : 0 < size ∧ size ≤ rest.length := by
  obtain ⟨block, after, rfl, cut, _, rfl⟩ := attributes?_eq_some_iff.1 found
  obtain ⟨_, some, _⟩ := AttributeBlock.split?_eq_append cut
  have positive := List.length_pos_of_ne_nil some
  rw [List.length_append, length_textPieces]
  omega

/-- With at least as many steps as there are pieces left, more steps make no difference. -/
theorem build_eq_of_lt {fuel fuel' : Nat} (front : List Piece) (before : Option Piece) {rest : List Piece}
    (enough : rest.length < fuel) (enough' : rest.length < fuel') :
    build fuel front before rest = build fuel' front before rest := by
  induction fuel generalizing fuel' front before rest with
  | zero => omega
  | succ fuel ih =>
    obtain ⟨fuel', rfl⟩ : ∃ n, fuel' = n + 1 := ⟨fuel' - 1, by omega⟩
    cases rest with
    | nil => rw [build, build]
    | cons piece rest =>
      rw [List.length_cons] at enough enough'
      rw [build, build]
      split
      · rename_i attrs size found
        obtain ⟨positive, _⟩ := attributes?_bounds (trailing?_eq_some found).2.2
        have shorter : ((piece :: rest).drop size).length < rest.length + 1 := by
          rw [List.length_drop, List.length_cons]
          omega
        rw [ih _ _ (by omega) (by omega : _ < fuel')]
      · split
        · rename_i found here
          obtain ⟨front, back, after, frames⟩ := construct?_frames here
          obtain ⟨positive, bound, label⟩ := frames.bounds
          have shorter : ((piece :: rest).drop found.size).length < rest.length + 1 := by
            rw [List.length_drop, List.length_cons]
            omega
          rw [List.length_cons] at bound
          have inside :
              build fuel [] none found.label = build fuel' [] none found.label := ih _ _ (by omega) (by omega)
          rw [inside, ih _ _ (by omega) (by omega : _ < fuel')]
        · exact ih _ _ (by omega) (by omega)

/-- What is read of pieces, with `front` the pieces since the last construct and `before` the piece in front. -/
def read (front : List Piece) (before : Option Piece) (rest : List Piece) : List Node :=
  build (rest.length + 1) front before rest

theorem apply_eq (siblings : List Node) : apply siblings = read [] none (pieces siblings) := rfl

variable {front : List Piece} {before : Option Piece} {piece : Piece} {rest : List Piece}

theorem read_nil : read front before [] = nodes front := rfl

theorem read_trailing {attrs : Attrs} {size : Nat} (found : trailing? before (piece :: rest) = some (attrs, size)) :
    read front before (piece :: rest) =
      mergeLast attrs (nodes front) ++ read [] ((piece :: rest)[size - 1]?) ((piece :: rest).drop size) := by
  obtain ⟨positive, _⟩ := attributes?_bounds (trailing?_eq_some found).2.2
  have enough : ((piece :: rest).drop size).length < rest.length + 1 := by
    rw [List.length_drop, List.length_cons]
    omega
  rw [read, List.length_cons, build, found]
  exact congrArg _ (build_eq_of_lt _ _ enough (Nat.lt_succ_self _))

theorem read_construct {found : Construct} (none : trailing? before (piece :: rest) = none)
    (here : construct? before (piece :: rest) = some found) : read front before (piece :: rest) =
      nodes front ++ Node.element found.tag found.attrs (read [] Option.none found.label) ::
        read [] ((piece :: rest)[found.size - 1]?) ((piece :: rest).drop found.size) := by
  obtain ⟨_, back, after, frames⟩ := construct?_frames here
  obtain ⟨positive, bound, label⟩ := frames.bounds
  have enough : ((piece :: rest).drop found.size).length < rest.length + 1 := by
    rw [List.length_drop, List.length_cons]
    omega
  rw [List.length_cons] at bound
  rw [read, List.length_cons, build, none, here]
  simp only [read]
  rw [build_eq_of_lt _ _ enough (Nat.lt_succ_self _), build_eq_of_lt _ _ (by omega) (Nat.lt_succ_self _)]

theorem read_plain (none : trailing? before (piece :: rest) = none)
    (none' : construct? before (piece :: rest) = Option.none) :
    read front before (piece :: rest) = read (front ++ [piece]) (some piece) rest := by
  rw [read, List.length_cons, build, none, none', read]

/-- A construct starts with a brace, a colon or a bracket. -/
theorem construct?_of_head (plain : piece.toChar ∉ ['\x7b', ':', '[']) :
    construct? before (piece :: rest) = none := by
  have start : chars ((piece :: rest).take 2) = piece.toChar :: chars (rest.take 1) := rfl
  rw [construct?, start]
  split
  all_goals
    rename_i same
    first | rfl | (rw [(List.cons.inj same).1] at plain; exact absurd plain (by decide))

/-- What stands around a construct is read apart from it. -/
theorem read_frames (front : List Piece) {found : Construct} {opening closing : List Char} {after : List Piece}
    (none : trailing? before rest = none) (here : construct? before rest = some found)
    (frames : found.Frames rest opening closing after) :
    ∃ c, (opening ++ closing).getLast? = some c ∧ read front before rest =
      nodes front ++ Node.element found.tag found.attrs (read [] Option.none found.label) ::
        read [] (some (.char c)) after := by
  obtain ⟨c, last, place⟩ := frames.last
  obtain ⟨positive, bound, _⟩ := frames.bounds
  obtain ⟨piece, rest, rfl⟩ :=
    List.exists_cons_of_ne_nil (List.length_pos_iff.1 (Nat.lt_of_lt_of_le positive bound))
  exact ⟨c, last, by rw [read_construct none here, frames.cut.2, place]⟩

end Steps

section Text

theorem nodes_textPieces {s : List Char} (some : s ≠ []) : nodes (textPieces s) = [.text (String.ofList s)] := by
  have open_ : ∀ front : List Char, nodesFrom front (textPieces s) =
      if (front ++ s).isEmpty then [] else [.text (String.ofList (front ++ s))] := by
    clear some
    induction s with
    | nil =>
      intro front
      rw [List.append_nil]
      rfl
    | cons c rest ih =>
      intro front
      have next : nodesFrom front (textPieces (c :: rest)) = nodesFrom (front ++ [c]) (textPieces rest) := by rfl
      rw [next, ih, List.append_assoc, List.singleton_append]
  rw [nodes, open_, List.nil_append, if_neg (by simpa using some)]

theorem apply_text (s : List Char) : apply [.text (String.ofList s)] = read [] none (textPieces s) := by
  have laid : pieces [.text (String.ofList s)] = textPieces s := by simp [pieces, textPieces]
  rw [apply_eq, laid]

variable {before : Option Piece} (text : before.any Piece.isElement = false)

include text

theorem trailing?_of_text (rest : List Piece) : trailing? before rest = none := by
  rw [trailing?, text]
  simp

/-- Text in which no construct starts is passed over. -/
theorem read_plain_text {s : List Char} (plain : ∀ c ∈ s, c ∉ ['\x7b', ':', '[']) (front tail : List Char) :
    read (textPieces front) before (textPieces (s ++ tail)) =
      read (textPieces (front ++ s)) ((s.getLast?.map Piece.char).or before) (textPieces tail) := by
  induction s generalizing front before with
  | nil => rw [List.append_nil]; rfl
  | cons c rest ih =>
    obtain ⟨here, below⟩ := List.forall_mem_cons.1 plain
    have start : textPieces (c :: rest ++ tail) = .char c :: textPieces (rest ++ tail) := rfl
    have free := trailing?_of_text text (textPieces (c :: rest ++ tail))
    have longer : textPieces front ++ [.char c] = textPieces (front ++ [c]) := (textPieces_append front [c]).symm
    have last :
        (rest.getLast?.map Piece.char).or (some (.char c)) = ((c :: rest).getLast?.map Piece.char).or before := by
      cases rest with
      | nil => rfl
      | cons d more =>
        rw [List.getLast?_cons_cons]
        obtain ⟨init, e, same⟩ := (List.eq_nil_or_concat (d :: more)).resolve_left (List.cons_ne_nil _ _)
        rw [same, List.concat_eq_append, List.getLast?_concat]
        rfl
    rw [start] at free ⊢
    rw [read_plain free (construct?_of_head here), longer, ih rfl below, List.append_assoc,
      List.singleton_append, last]

/-- Text in front of text stays the first node. -/
theorem read_text_cons {front : List Char} (some : front ≠ []) (s : List Char) :
    ∃ content more, read (textPieces front) before (textPieces s) = .text content :: more := by
  induction s generalizing front before with
  | nil => exact ⟨_, [], nodes_textPieces some⟩
  | cons c rest ih =>
    have start : textPieces (c :: rest) = .char c :: textPieces rest := rfl
    have free := trailing?_of_text text (textPieces (c :: rest))
    rw [start] at free ⊢
    cases here : construct? before (.char c :: textPieces rest) with
    | none =>
      have longer : textPieces front ++ [.char c] = textPieces (front ++ [c]) := (textPieces_append front [c]).symm
      rw [read_plain free here, longer]
      exact ih rfl (by simp)
    | some found =>
      rw [read_construct free here, nodes_textPieces some]
      exact ⟨_, _, rfl⟩

theorem read_text_eq_nil {s : List Char} (nothing : read [] before (textPieces s) = []) : s = [] := by
  cases s with
  | nil => rfl
  | cons c rest =>
    have start : textPieces (c :: rest) = .char c :: textPieces rest := rfl
    have free := trailing?_of_text text (textPieces (c :: rest))
    rw [start] at nothing free
    cases here : construct? before (.char c :: textPieces rest) with
    | none =>
      obtain ⟨content, more, same⟩ := @read_text_cons (some (.char c)) rfl [c] (List.cons_ne_nil c []) rest
      rw [read_plain free here, List.nil_append] at nothing
      rw [textPieces, List.map_singleton] at same
      rw [same] at nothing
      cases nothing
    | some found =>
      rw [read_construct free here] at nothing
      simp at nothing

end Text

end Inline

end ComponentMarkdown
